import Vantage.Lib.Text

/-!
# Lines within lines

A text that is split at some characters can be split further at others. A piece
is visible when it has a visible element; a line is broken when a separator
stands between visible elements.
-/

namespace Lines

variable {α : Type*} {p q vis : α → Bool} {l a b : List α} {c : α}

/-- From the end of the list to its first separator. -/
theorem induction_on_breaks {motive : List α → Prop}
    (plain : ∀ l, (∀ x ∈ l, p x = false) → motive l)
    (broken : ∀ a c b, (∀ x ∈ a, p x = false) → p c = true → motive b → motive (a ++ c :: b))
    (l : List α) : motive l := by
  suffices h : ∀ a, (∀ x ∈ a, p x = false) → motive (a ++ l) from h [] (by simp)
  induction l with
  | nil =>
      intro a ha
      rw [List.append_nil]
      exact plain a ha
  | cons c l ih =>
      intro a ha
      cases hc : p c with
      | true => exact broken a c l ha hc (by simpa using ih [] (by simp))
      | false =>
          rw [← List.singleton_append, ← List.append_assoc]
          apply ih
          intro x hx
          rcases List.mem_append.mp hx with hx | hx
          · exact ha x hx
          · rw [List.mem_singleton.mp hx, hc]

/-- Splitting at fewer characters first makes no difference. -/
theorem splitOnP_eq_flatMap (h : ∀ x, q x = true → p x = true) (l : List α) :
    l.splitOnP p = (l.splitOnP q).flatMap (·.splitOnP p) := by
  induction l using induction_on_breaks (p := q) with
  | plain l hl => rw [List.splitOnP_eq_singleton hl, List.flatMap_singleton]
  | broken a c b ha hc ih =>
      rw [List.splitOnP_append_cons a b (h c hc), List.splitOnP_append_cons_of_forall_mem ha c hc,
        List.flatMap_cons, ih]

section Visible

variable (hp : ∀ x, p x = true → vis x = false)

include hp

theorem any_append_cons (hc : p c = true) : (a ++ c :: b).any vis = (a.any vis || b.any vis) := by
  rw [List.any_append, List.any_cons, hp c hc, Bool.false_or]

theorem any_splitOnP (l : List α) : (l.splitOnP p).any (·.any vis) = l.any vis := by
  induction l using induction_on_breaks (p := p) with
  | plain l hl => rw [List.splitOnP_eq_singleton hl, List.any_cons, List.any_nil, Bool.or_false]
  | broken a c b ha hc ih =>
      rw [List.splitOnP_append_cons_of_forall_mem ha c hc, List.any_cons, ih, any_append_cons hp hc]

theorem one_le_countP_iff (l : List α) :
    1 ≤ (l.splitOnP p).countP (·.any vis) ↔ l.any vis = true := by
  rw [← any_splitOnP hp l, List.any_eq_true, Nat.one_le_iff_ne_zero, ← Nat.pos_iff_ne_zero,
    List.countP_pos_iff]

end Visible

/-- A separator stands between visible elements. -/
def Broken (p vis : α → Bool) (l : List α) : Prop :=
  ∃ a c b, l = a ++ c :: b ∧ p c = true ∧ a.any vis = true ∧ b.any vis = true

theorem two_le_countP_iff (hp : ∀ x, p x = true → vis x = false) (l : List α) :
    2 ≤ (l.splitOnP p).countP (·.any vis) ↔ Broken p vis l := by
  constructor
  · intro hcount
    induction l using induction_on_breaks (p := p) with
    | plain l hl =>
        have hle := List.countP_le_length (p := (·.any vis)) (l := l.splitOnP p)
        rw [List.splitOnP_eq_singleton hl] at hle hcount
        exact absurd (hcount.trans hle) (by simp)
    | broken a c b ha hc ih =>
        rw [List.splitOnP_append_cons_of_forall_mem ha c hc, List.countP_cons] at hcount
        cases hvisible : a.any vis with
        | true =>
            rw [hvisible, if_pos rfl] at hcount
            exact ⟨a, c, b, rfl, hc, hvisible, (one_le_countP_iff hp b).mp (by omega)⟩
        | false =>
            rw [hvisible, if_neg (by simp)] at hcount
            obtain ⟨a', c', b', rfl, hc', ha', hb'⟩ := ih (by omega)
            refine ⟨a ++ c :: a', c', b', by simp, hc', ?_, hb'⟩
            rw [any_append_cons hp hc, ha', Bool.or_true]
  · rintro ⟨a, c, b, rfl, hc, ha, hb⟩
    rw [List.splitOnP_append_cons a b hc, List.countP_append]
    have hfirst := (one_le_countP_iff hp a).mpr ha
    have hsecond := (one_le_countP_iff hp b).mpr hb
    omega

/-- Two lists of lines have as many visible pieces as visible lines exactly when
no line is broken. -/
theorem countP_flatMap_eq_iff (hp : ∀ x, p x = true → vis x = false) (lines : List (List α)) :
    (lines.flatMap (·.splitOnP p)).countP (·.any vis) = lines.countP (·.any vis) ↔
      ∀ l ∈ lines, ¬ Broken p vis l := by
  have hline : ∀ l : List α, (if l.any vis = true then 1 else 0) ≤
      (l.splitOnP p).countP (·.any vis) := by
    intro l
    split_ifs with hl
    · exact (one_le_countP_iff hp l).mpr hl
    · exact Nat.zero_le _
  have hle : ∀ lines : List (List α), lines.countP (·.any vis) ≤
      (lines.flatMap (·.splitOnP p)).countP (·.any vis) := by
    intro lines
    induction lines with
    | nil => exact le_rfl
    | cons l lines ih =>
        rw [List.flatMap_cons, List.countP_append, List.countP_cons]
        have := hline l
        omega
  induction lines with
  | nil => simp
  | cons l lines ih =>
      have hrest := hle lines
      have hfirst := hline l
      have hvisible := one_le_countP_iff hp l
      rw [List.forall_mem_cons, ← two_le_countP_iff hp l]
      refine Iff.trans ?_ (and_congr_right fun _ ↦ ih)
      rw [List.flatMap_cons, List.countP_append, List.countP_cons]
      split_ifs at hfirst ⊢ with hl
      · omega
      · have hnone : ¬ 1 ≤ (l.splitOnP p).countP (·.any vis) := fun h ↦ hl (hvisible.mp h)
        omega

end Lines

namespace Text

open Lines

/-- A character other than white space. -/
def visible (c : Char) : Bool := !isSpace c

theorem visible_of_isLineBreak (c : Char) (h : isLineBreak c = true) : visible c = false := by
  simp only [isLineBreak, visible, isSpace, Bool.or_eq_true, Bool.and_eq_true, decide_eq_true_eq,
    beq_iff_eq, Bool.not_eq_false'] at h ⊢
  omega

theorem stripChars_eq_nil_iff {p : Char → Bool} {l : List Char} :
    stripChars p l = [] ↔ ∀ c ∈ l, p c = true := by
  rw [stripChars, rstripChars, List.reverse_eq_nil_iff, List.dropWhile_eq_nil_iff]
  simp only [List.mem_reverse]
  constructor
  · intro h
    have hdrop : l.dropWhile p = [] := by
      by_contra hne
      have hhead := List.head_dropWhile_not p hne
      rw [h _ (List.head_mem hne)] at hhead
      exact Bool.noConfusion hhead
    exact List.dropWhile_eq_nil_iff.mp hdrop
  · intro h c hc
    exact h c ((List.dropWhile_suffix p).sublist.mem hc)

theorem strip_ne_empty_iff {s : String} : strip s ≠ "" ↔ s.toList.any visible = true := by
  rw [ne_eq, ← String.toList_eq_nil_iff, strip, String.toList_ofList, stripChars_eq_nil_iff]
  simp [visible]

/-- The visible lines of a text are the visible pieces between its line breaks;
two characters that count as one break leave an empty piece. -/
theorem filter_splitLinesFrom (line l : List Char) :
    (splitLinesFrom line l).filter (·.any visible) =
      (List.splitOnPPrepend isLineBreak l line).filter (·.any visible) := by
  fun_induction splitLinesFrom line l with
  | case1 => rfl
  | case2 line hline => rfl
  | case3 line l ih =>
      rw [List.splitOnPPrepend_cons_pos (by decide), List.splitOnP_cons_eq_if_modifyHead,
        if_pos (by decide), List.filter_cons, List.filter_cons, List.filter_cons, ih]
      rfl
  | case4 line c l hc hbreak ih =>
      rw [List.splitOnPPrepend_cons_pos hbreak, List.filter_cons, List.filter_cons, ih]
      rfl
  | case5 line c l hc hbreak ih =>
      rw [List.splitOnPPrepend_cons_neg (by simpa using hbreak), ih]

theorem filter_splitLines (s : String) :
    ((splitLines s).filter fun line ↦ line.toList.any visible).map String.toList =
      ((s.toList.splitOn '\n').flatMap (·.splitOnP isLineBreak)).filter (·.any visible) := by
  have hnewline : ∀ c, (c == '\n') = true → isLineBreak c = true := by
    intro c hc
    rw [beq_iff_eq.mp hc]
    decide
  have hpieces := splitOnP_eq_flatMap hnewline s.toList
  rw [List.splitOn_eq_splitOnP, ← hpieces, List.splitOnP_eq_splitOnPPrepend,
    ← filter_splitLinesFrom, splitLines, List.filter_map, List.map_map]
  simp only [Function.comp_def, String.toList_ofList, List.map_id']

end Text
