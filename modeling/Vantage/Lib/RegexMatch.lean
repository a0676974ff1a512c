import Vantage.Lib.Regex

/-!
# What a pattern matches

The texts that a pattern matches, without the order in which they are tried,
and the search for the first of them.
-/

namespace Regex

/-- The pattern matches the text, with what its group holds. -/
def Matches : Regex → List Char → Option (List Char) → Prop
  | .eps, t, g => t = [] ∧ g = none
  | .rep p least most, t, g =>
      (∀ c ∈ t, p c = true) ∧ least ≤ t.length ∧ (∀ m ∈ most, t.length ≤ m) ∧ g = none
  | .seq r s, t, g =>
      ∃ t₁ g₁ t₂ g₂, Matches r t₁ g₁ ∧ Matches s t₂ g₂ ∧ t = t₁ ++ t₂ ∧ g = g₂.or g₁
  | .alt r s, t, g => Matches r t g ∨ Matches s t g
  | .group r, t, g => ∃ g', Matches r t g' ∧ g = some t

variable {r s : Regex} {p : Char → Bool} {least : ℕ} {most : Option ℕ} {l t : List Char}
  {g : Option (List Char)} {o : Outcome} {n : ℕ}

theorem mem_outcomes_rep :
    o ∈ outcomes (.rep p least most) l ↔ l = o.text ++ o.rest ∧ Matches (.rep p least most) o.text
      o.group := by
  constructor
  · intro ho
    obtain ⟨hall, hleast, hmost⟩ := rep_spec ho
    obtain ⟨k, -, rfl⟩ := List.mem_map.mp ho
    exact ⟨(List.take_append_drop k l).symm, hall, hleast, hmost, rfl⟩
  · obtain ⟨text, group, rest⟩ := o
    rintro ⟨rfl, hall, hleast, hmost, rfl⟩
    have hrun : text.length ≤ ((text ++ rest).takeWhile p).length := by
      rw [List.takeWhile_append_of_pos hall, List.length_append]
      exact Nat.le_add_right _ _
    have hlongest : text.length < most.elim ((text ++ rest).takeWhile p).length
        (min ((text ++ rest).takeWhile p).length) + 1 := by
      cases most with
      | none => exact Nat.lt_succ_of_le hrun
      | some m => exact Nat.lt_succ_of_le (le_min hrun (hmost m rfl))
    refine List.mem_map.mpr ⟨text.length, ?_, ?_⟩
    · rw [List.mem_filter, List.mem_reverse, List.mem_range]
      exact ⟨hlongest, decide_eq_true hleast⟩
    · rw [List.take_left', List.drop_left'] <;> rfl

/-- The ways to match at the start of a text are its beginnings that the pattern matches. -/
theorem mem_outcomes_iff : o ∈ outcomes r l ↔ l = o.text ++ o.rest ∧ Matches r o.text o.group := by
  induction r generalizing l o with
  | eps =>
      obtain ⟨text, group, rest⟩ := o
      simp only [outcomes, Matches, List.mem_singleton, Outcome.mk.injEq]
      constructor
      · rintro ⟨rfl, rfl, rfl⟩
        exact ⟨rfl, rfl, rfl⟩
      · rintro ⟨rfl, rfl, rfl⟩
        exact ⟨rfl, rfl, rfl⟩
  | rep p least most => exact mem_outcomes_rep
  | seq r s ihr ihs =>
      rw [mem_outcomes_seq]
      constructor
      · rintro ⟨a, ha, b, hb, rfl⟩
        obtain ⟨rfl, hmatchA⟩ := ihr.mp ha
        obtain ⟨hrest, hmatchB⟩ := ihs.mp hb
        exact ⟨by rw [hrest, List.append_assoc], _, _, _, _, hmatchA, hmatchB, rfl, rfl⟩
      · obtain ⟨text, group, rest⟩ := o
        rintro ⟨rfl, t₁, g₁, t₂, g₂, hmatchA, hmatchB, rfl, rfl⟩
        refine ⟨⟨t₁, g₁, t₂ ++ rest⟩, ihr.mpr ⟨List.append_assoc _ _ _, hmatchA⟩,
          ⟨t₂, g₂, rest⟩, ihs.mpr ⟨rfl, hmatchB⟩, rfl⟩
  | alt r s ihr ihs =>
      rw [outcomes, List.mem_append, ihr, ihs, ← and_or_left]
      rfl
  | group r ih =>
      constructor
      · intro ho
        obtain ⟨a, ha, rfl⟩ := List.mem_map.mp ho
        obtain ⟨hsplit, hmatch⟩ := ih.mp ha
        exact ⟨hsplit, _, hmatch, rfl⟩
      · obtain ⟨text, group, rest⟩ := o
        rintro ⟨hsplit, g', hmatch, hgroup⟩
        obtain rfl : group = some text := hgroup
        exact List.mem_map.mpr ⟨⟨text, g', rest⟩, ih.mpr ⟨hsplit, hmatch⟩, rfl⟩

/-! ## The parts of a pattern -/

theorem matches_one : Matches (one p) t g ↔ ∃ c, p c = true ∧ t = [c] ∧ g = none := by
  constructor
  · rintro ⟨hall, hleast, hmost, rfl⟩
    obtain ⟨c, rfl⟩ := List.length_eq_one_iff.mp (le_antisymm (hmost 1 rfl) hleast)
    exact ⟨c, hall c List.mem_cons_self, rfl, rfl⟩
  · rintro ⟨c, hc, rfl, rfl⟩
    exact ⟨List.forall_mem_singleton.mpr hc, le_rfl, by rintro m ⟨⟩; exact le_rfl, rfl⟩

theorem matches_many : Matches (many p) t g ↔ (∀ c ∈ t, p c = true) ∧ g = none := by
  constructor
  · rintro ⟨hall, -, -, rfl⟩
    exact ⟨hall, rfl⟩
  · rintro ⟨hall, rfl⟩
    exact ⟨hall, Nat.zero_le _, by simp, rfl⟩

theorem matches_some1 : Matches (some1 p) t g ↔ (∀ c ∈ t, p c = true) ∧ t ≠ [] ∧ g = none := by
  rw [← List.length_pos_iff]
  constructor
  · rintro ⟨hall, hleast, -, rfl⟩
    exact ⟨hall, hleast, rfl⟩
  · rintro ⟨hall, hpos, rfl⟩
    exact ⟨hall, hpos, by simp, rfl⟩

/-- A sequence of patterns of single characters. -/
theorem matches_foldr {f : Char → Char → Bool} {chars : List Char} :
    Matches (chars.foldr (fun c r ↦ .seq (one (f c)) r) .eps) t g ↔
      List.Forall₂ (fun a c ↦ f a c = true) chars t ∧ g = none := by
  induction chars generalizing t g with
  | nil => simp [Matches]
  | cons a chars ih =>
      rw [List.foldr_cons]
      constructor
      · rintro ⟨t₁, g₁, t₂, g₂, hfirst, hrest, rfl, rfl⟩
        obtain ⟨c, hc, rfl, rfl⟩ := matches_one.mp hfirst
        obtain ⟨hall, rfl⟩ := ih.mp hrest
        exact ⟨.cons hc hall, rfl⟩
      · rintro ⟨hall, rfl⟩
        cases hall with
        | @cons _ c _ t₂ hc hall =>
            exact ⟨[c], none, t₂, none, matches_one.mpr ⟨c, hc, rfl, rfl⟩, ih.mpr ⟨hall, rfl⟩,
              rfl, rfl⟩

theorem matches_litIgnoringCase {text : String} : Matches (litIgnoringCase text) t g ↔
    List.Forall₂ (fun a c ↦ sameLetter a c = true) text.toList t ∧ g = none := matches_foldr

theorem matches_lit {text : String} : Matches (lit text) t g ↔ t = text.toList ∧ g = none := by
  have hsame : ∀ chars : List Char,
      List.Forall₂ (fun a c : Char ↦ (c == a) = true) chars t ↔ t = chars := by
    intro chars
    simp only [beq_iff_eq]
    constructor
    · intro hall
      have hflip : List.Forall₂ (· = ·) t chars := hall.flip
      rwa [List.forall₂_eq_eq_eq] at hflip
    · rintro rfl
      exact List.forall₂_same.mpr fun _ _ ↦ rfl
  exact matches_foldr.trans (and_congr_left' (hsame _))

/-! ## Searching -/

theorem findFrom_of_some (h : (outcomes r l).find? (!·.text.isEmpty) = some o) :
    findFrom r (n + 1) l = o :: findFrom r n o.rest := by
  conv_lhs => unfold findFrom
  rw [h]

theorem findFrom_of_none {c : Char} (h : (outcomes r (c :: l)).find? (!·.text.isEmpty) = none) :
    findFrom r (n + 1) (c :: l) = findFrom r n l := by
  conv_lhs => unfold findFrom
  rw [h]

theorem findFrom_eq_nil (h : ∀ t, t <:+ l → ∀ o ∈ outcomes r t, o.text = []) :
    findFrom r n l = [] := by
  induction n generalizing l with
  | zero => rfl
  | succ n ih =>
      have hnone : (outcomes r l).find? (!·.text.isEmpty) = none := by
        rw [List.find?_eq_none]
        intro o ho
        simp [h l List.suffix_rfl o ho]
      cases l with
      | nil =>
          unfold findFrom
          rw [hnone]
      | cons c l =>
          rw [findFrom_of_none hnone]
          exact ih fun t ht ↦ h t (ht.trans (List.suffix_cons c l))

/-- When there is a match somewhere, the search stops there or before. -/
theorem findFrom_eq_cons (hn : l.length < n) (hsuffix : t <:+ l) (ho : o ∈ outcomes r t)
    (hne : o.text ≠ []) : ∃ t' o' m, t' <:+ l ∧ t <:+ t' ∧ o' ∈ outcomes r t' ∧ o'.text ≠ [] ∧
      findFrom r n l = o' :: findFrom r m o'.rest := by
  induction n generalizing l with
  | zero => exact absurd hn (Nat.not_lt_zero _)
  | succ n ih =>
      cases hfind : (outcomes r l).find? (!·.text.isEmpty) with
      | some o' =>
          refine ⟨l, o', n, List.suffix_rfl, hsuffix, List.mem_of_find?_eq_some hfind, ?_,
            findFrom_of_some hfind⟩
          simpa using List.find?_some hfind
      | none =>
          have hlater : t ≠ l := by
            rintro rfl
            have hempty := List.find?_eq_none.mp hfind o ho
            simp [hne] at hempty
          cases l with
          | nil => exact absurd (List.suffix_nil.mp hsuffix) hlater
          | cons c l =>
              have hrest := (List.suffix_cons_iff.mp hsuffix).resolve_left hlater
              obtain ⟨t', o', m, ht', hbefore, ho', hne', hfound⟩ :=
                ih (Nat.lt_of_succ_lt_succ hn) hrest
              exact ⟨t', o', m, ht'.trans (List.suffix_cons c l), hbefore, ho', hne',
                (findFrom_of_none hfind).trans hfound⟩

end Regex
