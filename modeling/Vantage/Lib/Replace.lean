import Vantage.Lib.Text

/-!
# Replacing every occurrence of a word

The leftmost, non-overlapping occurrences of a word are replaced by another
one. Where the new word is longer, the lists without an occurrence are the
only ones that stay as they are.
-/

namespace Replace

variable {α : Type} [DecidableEq α] {old new : List α}

/-- The number counts the elements of an occurrence that are still to be passed over. -/
def replaceFrom (old new : List α) : ℕ → List α → List α
  | _, [] => []
  | k + 1, _ :: l => replaceFrom old new k l
  | 0, c :: l =>
      if old.isPrefixOf (c :: l) then new ++ replaceFrom old new (old.length - 1) l
      else c :: replaceFrom old new 0 l

theorem replaceFrom_of_match {c : α} {l : List α} (h : old <+: c :: l) :
    replaceFrom old new 0 (c :: l) = new ++ replaceFrom old new (old.length - 1) l := by
  rw [replaceFrom, if_pos (List.isPrefixOf_iff_prefix.mpr h)]

theorem replaceFrom_of_no_match {c : α} {l : List α} (h : ¬ old <+: c :: l) :
    replaceFrom old new 0 (c :: l) = c :: replaceFrom old new 0 l := by
  rw [replaceFrom, if_neg fun hmatch ↦ h (List.isPrefixOf_iff_prefix.mp hmatch)]

theorem replaceFrom_append_skip (w l : List α) :
    replaceFrom old new w.length (w ++ l) = replaceFrom old new 0 l := by
  induction w with
  | nil => rfl
  | cons c w ih => exact ih

theorem replaceFrom_append (hne : old ≠ []) (l : List α) :
    replaceFrom old new 0 (old ++ l) = new ++ replaceFrom old new 0 l := by
  obtain ⟨c, w, rfl⟩ := List.exists_cons_of_ne_nil hne
  rw [List.cons_append, replaceFrom_of_match ⟨l, rfl⟩]
  exact congrArg (new ++ ·) (replaceFrom_append_skip w l)

theorem replaceFrom_of_not_infix {l : List α} (h : ¬ old <:+: l) :
    replaceFrom old new 0 l = l := by
  induction l with
  | nil => rfl
  | cons c l ih =>
      have hprefix : ¬ old <+: c :: l := fun hp ↦ h hp.isInfix
      have htail : ¬ old <:+: l := fun ht ↦ h (ht.trans (List.suffix_cons c l).isInfix)
      rw [replaceFrom_of_no_match hprefix, ih htail]

/-! ## Lengths -/

/-- What is passed over is made up for by the new word. -/
theorem length_le_replaceFrom (hne : old ≠ []) (hlen : old.length ≤ new.length) (k : ℕ)
    (l : List α) : l.length ≤ (replaceFrom old new k l).length + k := by
  have hpos : 0 < old.length := List.length_pos_of_ne_nil hne
  induction l generalizing k with
  | nil => exact Nat.zero_le _
  | cons c l ih =>
      cases k with
      | succ k =>
          have hskip := ih k
          rw [replaceFrom, List.length_cons]
          omega
      | zero =>
          by_cases hprefix : old <+: c :: l
          · have hrest := ih (old.length - 1)
            rw [replaceFrom_of_match hprefix, List.length_append, List.length_cons]
            omega
          · have hrest := ih 0
            rw [replaceFrom_of_no_match hprefix, List.length_cons, List.length_cons]
            omega

theorem length_lt_replaceFrom (hne : old ≠ []) (hlen : old.length < new.length) {l : List α}
    (h : old <:+: l) : l.length < (replaceFrom old new 0 l).length := by
  have hpos : 0 < old.length := List.length_pos_of_ne_nil hne
  induction l with
  | nil => exact absurd (List.infix_nil.mp h) hne
  | cons c l ih =>
      by_cases hprefix : old <+: c :: l
      · have hrest := length_le_replaceFrom hne hlen.le (old.length - 1) l
        rw [replaceFrom_of_match hprefix, List.length_append, List.length_cons]
        omega
      · have htail : old <:+: l := (List.infix_cons_iff.mp h).resolve_left hprefix
        have hrest := ih htail
        rw [replaceFrom_of_no_match hprefix, List.length_cons, List.length_cons]
        omega

end Replace

namespace Text

open Replace

/-- `s.replace(old, new)`; an empty `old` occurs around every character. -/
def replace (s old new : String) : String :=
  if old = "" then new ++ String.join (s.toList.map fun c ↦ c.toString ++ new)
  else String.ofList (replaceFrom old.toList new.toList 0 s.toList)

variable {old new : String}

theorem toList_replace (hne : old ≠ "") (s : String) :
    (replace s old new).toList = replaceFrom old.toList new.toList 0 s.toList := by
  rw [replace, if_neg hne, String.toList_ofList]

theorem replace_of_not_contains (hne : old ≠ "") {s : String} (h : contains s old = false) :
    replace s old new = s := by
  rw [← String.toList_inj, toList_replace hne]
  exact replaceFrom_of_not_infix fun hsub ↦ by simp [contains_iff.mpr hsub] at h

theorem replace_append (hne : old ≠ "") (s : String) :
    replace (old ++ s) old new = new ++ replace s old new := by
  have hold : old.toList ≠ [] := fun h ↦ hne (String.toList_inj.mp h)
  rw [← String.toList_inj, toList_replace hne, String.toList_append, String.toList_append,
    toList_replace hne]
  exact replaceFrom_append hold s.toList

theorem length_le_replace (hne : old ≠ "") (hlen : old.length ≤ new.length) (s : String) :
    s.length ≤ (replace s old new).length := by
  have hold : old.toList ≠ [] := fun h ↦ hne (String.toList_inj.mp h)
  rw [← String.length_toList, ← String.length_toList, toList_replace hne]
  exact length_le_replaceFrom hold (by rwa [String.length_toList, String.length_toList]) 0 s.toList

theorem length_lt_replace (hne : old ≠ "") (hlen : old.length < new.length) {s : String}
    (h : contains s old = true) : s.length < (replace s old new).length := by
  have hold : old.toList ≠ [] := fun h ↦ hne (String.toList_inj.mp h)
  rw [← String.length_toList, ← String.length_toList, toList_replace hne]
  exact length_lt_replaceFrom hold (by rwa [String.length_toList, String.length_toList])
    (contains_iff.mp h)

/-- A longer word takes the place of every occurrence, so a text that stays has none. -/
theorem replace_eq_self_iff (hne : old ≠ "") (hlen : old.length < new.length) {s : String} :
    replace s old new = s ↔ contains s old = false := by
  refine ⟨fun h ↦ ?_, replace_of_not_contains hne⟩
  by_contra hsub
  have hgrown := length_lt_replace hne hlen (Bool.eq_true_of_not_eq_false hsub)
  rw [h] at hgrown
  exact lt_irrefl _ hgrown

/-- The second replacement also runs over what the first one has put in. Neither shortens
the text, so neither can take back what the other one has added. -/
theorem replace_append_replace_eq_iff {t t' v v' : String} (ht : t ≠ "") (hv : v ≠ "")
    (htlen : t.length < t'.length) (hvlen : v.length < v'.length) (p s : String) :
    replace (p ++ replace s t t') v v' = p ++ s ↔
      contains s t = false ∧ contains (p ++ s) v = false := by
  constructor
  · intro h
    have hsecond := length_le_replace hv hvlen.le (p ++ replace s t t')
    have hfirst : contains s t = false := by
      by_contra hsub
      have hgrown := length_lt_replace ht htlen (Bool.eq_true_of_not_eq_false hsub)
      rw [h, String.length_append, String.length_append] at hsecond
      omega
    rw [replace_of_not_contains ht hfirst] at h
    exact ⟨hfirst, (replace_eq_self_iff hv hvlen).mp h⟩
  · rintro ⟨hfirst, hlast⟩
    rw [replace_of_not_contains ht hfirst]
    exact replace_of_not_contains hv hlast

end Text
