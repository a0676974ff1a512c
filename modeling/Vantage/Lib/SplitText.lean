import Vantage.Lib.Text

/-!
# Splitting a text at a separator

The split at the leftmost, non-overlapping occurrences of a separator, in
any letter case. The separator is given in upper case.
-/

namespace Text

def matchesCI (sep l : List Char) : Bool := sep.isPrefixOf (l.map Char.toUpper)

@[simp] theorem matchesCI_iff {sep l : List Char} :
    matchesCI sep l = true ↔ sep <+: l.map Char.toUpper := by
  simp [matchesCI, List.isPrefixOf_iff_prefix]

theorem matchesCI_eq_false_iff {sep l : List Char} :
    matchesCI sep l = false ↔ ¬ sep <+: l.map Char.toUpper := by
  rw [← matchesCI_iff, Bool.not_eq_true]

def containsCI (sep l : List Char) : Bool := decide (sep <:+: l.map Char.toUpper)

/-- The number counts the characters of a separator that are still to be passed over. -/
def splitFrom (sep : List Char) : ℕ → List Char → List Char → List (List Char)
  | _, acc, [] => [acc.reverse]
  | k + 1, acc, _ :: l => splitFrom sep k acc l
  | 0, acc, c :: l =>
      if matchesCI sep (c :: l) then acc.reverse :: splitFrom sep (sep.length - 1) [] l
      else splitFrom sep 0 (c :: acc) l

def splitCI (sep l : List Char) : List (List Char) := splitFrom sep 0 [] l

theorem splitFrom_append_skip (sep acc w l : List Char) :
    splitFrom sep w.length acc (w ++ l) = splitFrom sep 0 acc l := by
  induction w with
  | nil => rfl
  | cons c w ih => exact ih

theorem splitFrom_cons_of_not_matches {sep l : List Char} {c : Char}
    (h : matchesCI sep (c :: l) = false) (acc : List Char) :
    splitFrom sep 0 acc (c :: l) = splitFrom sep 0 (c :: acc) l := by
  simp [splitFrom, h]

theorem splitFrom_append_sep {sep x : List Char} (h : x.map Char.toUpper = sep) (hne : x ≠ [])
    (acc l : List Char) :
    splitFrom sep 0 acc (x ++ l) = acc.reverse :: splitFrom sep 0 [] l := by
  obtain ⟨c, x, rfl⟩ := List.exists_cons_of_ne_nil hne
  have hmatch : matchesCI sep (c :: (x ++ l)) = true := by
    rw [matchesCI_iff, ← h]
    exact ⟨l.map Char.toUpper, by simp⟩
  have hlen : sep.length - 1 = x.length := by simp [← h]
  rw [List.cons_append, splitFrom, if_pos hmatch, hlen, splitFrom_append_skip]

theorem toUpper_eq_space_iff {c : Char} : c.toUpper = ' ' ↔ c = ' ' := by
  constructor
  · intro h
    by_cases hlow : 'a'.val ≤ c.val ∧ c.val ≤ 'z'.val
    · have hval : c.toUpper.val = c.val + ('A'.val - 'a'.val) := by
        have hchar : c.toUpper = dite _ _ _ := rfl
        rw [hchar, dif_pos hlow]
      have hA : 'A'.val = 65 := rfl
      have ha : 'a'.val = 97 := rfl
      have hz : 'z'.val = 122 := rfl
      have hspace : ' '.val = 32 := rfl
      rw [h] at hval
      have hnat := congrArg UInt32.toNat hval
      simp only [hA, ha, hz, hspace, UInt32.le_iff_toNat_le, UInt32.toNat_add,
        UInt32.toNat_sub] at hlow hnat
      simp only [UInt32.reduceToNat] at hlow hnat
      omega
    · have hid : c.toUpper = c := dif_neg hlow
      rwa [hid] at h
  · rintro rfl
    decide

/-- A word without blanks holds no separator that starts with a blank. -/
theorem splitFrom_append_word (sep : List Char) {w : List Char} (hw : ' ' ∉ w) (acc l : List Char) :
    splitFrom (' ' :: sep) 0 acc (w ++ l) = splitFrom (' ' :: sep) 0 (w.reverse ++ acc) l := by
  induction w generalizing acc with
  | nil => rfl
  | cons c w ih =>
      simp only [List.mem_cons, not_or] at hw
      have hne : matchesCI (' ' :: sep) (c :: (w ++ l)) = false := by
        have hc : ' ' ≠ c.toUpper := fun hc ↦ hw.1 (toUpper_eq_space_iff.mp hc.symm).symm
        rw [matchesCI_eq_false_iff, List.map_cons, List.cons_prefix_cons]
        exact fun h ↦ hc h.1
      rw [List.cons_append, splitFrom_cons_of_not_matches hne, ih hw.2]
      simp

/-- A blank, followed by a word that is not the keyword, does not start the separator. -/
theorem not_matchesCI_of_word {key w rest : List Char} (hkey : ' ' ∉ key) (hw : ' ' ∉ w)
    (hne : w.map Char.toUpper ≠ key) (hrest : rest = [] ∨ rest.head? = some ' ') :
    matchesCI (' ' :: (key ++ [' '])) (' ' :: (w ++ rest)) = false := by
  by_contra hmatch
  rw [Bool.not_eq_false, matchesCI_iff, List.map_cons,
    toUpper_eq_space_iff.mpr rfl, List.cons_prefix_cons] at hmatch
  obtain ⟨t, ht⟩ := hmatch.2
  apply hne
  have hkey' : ∀ c ∈ key, (c != ' ') = true := fun c hc ↦ by
    simpa using fun h : c = ' ' ↦ hkey (h ▸ hc)
  have hw' : ∀ c ∈ w.map Char.toUpper, (c != ' ') = true := by
    intro c hc
    obtain ⟨d, hd, rfl⟩ := List.mem_map.mp hc
    simpa using fun h : d.toUpper = ' ' ↦ hw (toUpper_eq_space_iff.mp h ▸ hd)
  have htake := congrArg (List.takeWhile (· != ' ')) ht
  rw [List.append_assoc, List.takeWhile_append_of_pos hkey', List.map_append,
    List.takeWhile_append_of_pos hw'] at htake
  rcases hrest with rfl | hrest
  · simpa using htake.symm
  · obtain ⟨r, rfl⟩ := List.head?_eq_some_iff.mp hrest
    have hspace : ' '.toUpper = ' ' := by decide
    simpa [hspace] using htake.symm

theorem exists_splitFrom (sep : List Char) (k : ℕ) (acc l : List Char) :
    ∃ p ps, splitFrom sep k acc l = p :: ps := by
  induction l generalizing k acc with
  | nil => exact ⟨acc.reverse, [], by simp [splitFrom]⟩
  | cons c l ih =>
      cases k with
      | succ k => exact ih k acc
      | zero =>
          unfold splitFrom
          split_ifs
          · exact ⟨_, _, rfl⟩
          · exact ih 0 (c :: acc)

/-- There is a second piece exactly when the separator occurs. -/
theorem containsCI_iff_splitFrom {sep : List Char} (hsep : sep ≠ []) (acc l : List Char) :
    containsCI sep l = true ↔ ∃ p q ps, splitFrom sep 0 acc l = p :: q :: ps := by
  unfold containsCI
  rw [decide_eq_true_iff]
  induction l generalizing acc with
  | nil => simpa [splitFrom] using hsep
  | cons c l ih =>
      rw [List.map_cons, List.infix_cons_iff]
      cases hmatch : matchesCI sep (c :: l) with
      | true =>
          obtain ⟨p, ps, hsplit⟩ := exists_splitFrom sep (sep.length - 1) [] l
          have hpre : sep <+: c.toUpper :: l.map Char.toUpper := matchesCI_iff.mp hmatch
          simp only [splitFrom, hmatch, if_true, hsplit, hpre, true_or, true_iff]
          exact ⟨_, _, _, rfl⟩
      | false =>
          have hpre : ¬ sep <+: c.toUpper :: l.map Char.toUpper :=
            matchesCI_eq_false_iff.mp hmatch
          rw [splitFrom_cons_of_not_matches hmatch, ← ih (c :: acc)]
          simp [hpre]

theorem length_le_of_mem_splitFrom {sep : List Char} {k : ℕ} {acc l p : List Char}
    (h : p ∈ splitFrom sep k acc l) : p.length ≤ acc.length + l.length := by
  induction l generalizing k acc with
  | nil =>
      obtain rfl : p = acc.reverse := by simpa [splitFrom] using h
      simp
  | cons c l ih =>
      cases k with
      | succ k =>
          have hle : p.length ≤ acc.length + l.length := ih h
          simp only [List.length_cons]
          omega
      | zero =>
          unfold splitFrom at h
          split_ifs at h
          · rcases List.mem_cons.mp h with rfl | h
            · simp
            · have hle := ih h
              simp only [List.length_cons, List.length_nil] at hle ⊢
              omega
          · have hle := ih h
            simp only [List.length_cons] at hle ⊢
            omega

/-- When the separator occurs, every piece is shorter than the text. -/
theorem length_lt_of_mem_splitFrom {sep : List Char} {acc l p : List Char} (hsep : sep ≠ [])
    (hcontains : containsCI sep l = true) (h : p ∈ splitFrom sep 0 acc l) :
    p.length < acc.length + l.length := by
  induction l generalizing acc with
  | nil =>
      obtain ⟨p, q, ps, hsplit⟩ := (containsCI_iff_splitFrom hsep acc []).mp hcontains
      simp [splitFrom] at hsplit
  | cons c l ih =>
      cases hmatch : matchesCI sep (c :: l) with
      | true =>
          rw [splitFrom, if_pos hmatch] at h
          rcases List.mem_cons.mp h with rfl | h
          · simp
          · have hle := length_le_of_mem_splitFrom h
            simp only [List.length_cons, List.length_nil] at hle ⊢
            omega
      | false =>
          have hrest : containsCI sep l = true := by
            rw [containsCI_iff_splitFrom hsep (c :: acc),
              ← splitFrom_cons_of_not_matches hmatch, ← containsCI_iff_splitFrom hsep]
            exact hcontains
          rw [splitFrom_cons_of_not_matches hmatch] at h
          have hlt := ih hrest h
          simp only [List.length_cons] at hlt ⊢
          omega

end Text
