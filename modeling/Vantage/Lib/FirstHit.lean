import Mathlib.Data.List.Perm.Basic
import Mathlib.Tactic

/-!
# Ordered scans with a test that may fail

`firstHit` walks a list to the first element on which a test holds. The
test may fail with an error, which ends the walk. The outcome of a walk is
decided by the first element whose test is not a plain `false`, so it is
independent of the order exactly when all such elements answer alike.
-/

namespace FirstHit

variable {α ε : Type*}

/-- The index, counted from `i`, of the first element that passes the test. -/
def firstHit (test : α → Except ε Bool) : ℕ → List α → Except ε (Option ℕ)
  | _, [] => .ok none
  | i, a :: l =>
      match test a with
      | .error e => .error e
      | .ok true => .ok (some i)
      | .ok false => firstHit test (i + 1) l

/-- The outcome of a walk without the index. -/
def scan (test : α → Except ε Bool) : List α → Except ε Bool
  | [] => .ok false
  | a :: l =>
      match test a with
      | .error e => .error e
      | .ok true => .ok true
      | .ok false => scan test l

theorem map_isSome_firstHit (test : α → Except ε Bool) (i : ℕ) (l : List α) :
    (firstHit test i l).map Option.isSome = scan test l := by
  induction l generalizing i with
  | nil => rfl
  | cons a l ih =>
      unfold firstHit scan
      cases test a with
      | error e => rfl
      | ok b => cases b with
        | true => rfl
        | false => exact ih (i + 1)

/-- The hit is the first element that does not fail the test, and passes it. -/
theorem firstHit_eq_some_iff {test : α → Except ε Bool} {i idx : ℕ} {l : List α} :
    firstHit test i l = .ok (some idx) ↔ ∃ before a after, l = before ++ a :: after ∧
      (∀ b ∈ before, test b = .ok false) ∧ test a = .ok true ∧ idx = i + before.length := by
  induction l generalizing i with
  | nil => simp [firstHit]
  | cons x l ih =>
      constructor
      · intro h
        unfold firstHit at h
        cases hx : test x with
        | error e => simp [hx] at h
        | ok hit =>
            cases hit with
            | true =>
                have hidx : i = idx := by simpa [hx] using h
                exact ⟨[], x, l, rfl, by simp, hx, by simp [hidx]⟩
            | false =>
                rw [hx] at h
                obtain ⟨before, a, after, rfl, hbefore, ha, hidx⟩ := ih.mp h
                refine ⟨x :: before, a, after, rfl, ?_, ha, ?_⟩
                · simpa [hx] using hbefore
                · simp [hidx, Nat.add_comm, Nat.add_left_comm]
      · rintro ⟨before, a, after, hl, hbefore, ha, rfl⟩
        cases before with
        | nil =>
            obtain ⟨rfl, rfl⟩ := List.cons.inj hl
            simp [firstHit, ha]
        | cons b before =>
            obtain ⟨rfl, rfl⟩ := List.cons.inj hl
            have hrest := ih.mpr ⟨before, a, after, rfl,
              fun b hb ↦ hbefore b (List.mem_cons_of_mem _ hb), ha, Nat.add_right_comm _ _ 1⟩
            simp only [firstHit, hbefore x List.mem_cons_self]
            exact hrest

theorem firstHit_eq_none_iff {test : α → Except ε Bool} {i : ℕ} {l : List α} :
    firstHit test i l = .ok none ↔ ∀ a ∈ l, test a = .ok false := by
  induction l generalizing i with
  | nil => simp [firstHit]
  | cons x l ih =>
      unfold firstHit
      cases hx : test x with
      | error e => simp [hx]
      | ok hit => cases hit <;> simp [hx, ih]

@[simp] theorem scan_nil (test : α → Except ε Bool) : scan test [] = .ok false := rfl

theorem scan_cons_of_eq_false {test : α → Except ε Bool} {a : α} (h : test a = .ok false)
    (l : List α) : scan test (a :: l) = scan test l := by
  simp [scan, h]

theorem scan_cons_of_ne_false {test : α → Except ε Bool} {a : α} (h : test a ≠ .ok false)
    (l : List α) : scan test (a :: l) = test a := by
  unfold scan
  cases htest : test a with
  | error e => rfl
  | ok b => cases b with
    | true => rfl
    | false => exact (h htest).elim

theorem scan_cons_of_eq_ok {test : α → Except ε Bool} {a : α} {b c : Bool} {l : List α}
    (h : test a = .ok b) (hl : scan test l = .ok c) : scan test (a :: l) = .ok (b || c) := by
  unfold scan
  rw [h]
  cases b with
  | true => rfl
  | false => exact hl

theorem scan_eq_false_iff {test : α → Except ε Bool} {l : List α} :
    scan test l = .ok false ↔ ∀ a ∈ l, test a = .ok false := by
  induction l with
  | nil => simp
  | cons a l ih =>
      by_cases ha : test a = .ok false
      · rw [scan_cons_of_eq_false ha, ih]
        simp [ha]
      · rw [scan_cons_of_ne_false ha]
        simp [ha]

/-- A walk that is not a plain `false` repeats the answer of one of its elements. -/
theorem exists_of_scan_ne_false {test : α → Except ε Bool} {l : List α}
    (h : scan test l ≠ .ok false) : ∃ a ∈ l, test a ≠ .ok false ∧ scan test l = test a := by
  induction l with
  | nil => simp at h
  | cons a l ih =>
      by_cases ha : test a = .ok false
      · rw [scan_cons_of_eq_false ha] at h ⊢
        obtain ⟨b, hb, hne, heq⟩ := ih h
        exact ⟨b, List.mem_cons_of_mem a hb, hne, heq⟩
      · exact ⟨a, by simp, ha, scan_cons_of_ne_false ha l⟩

/-- All elements whose test is not a plain `false` give the same answer. -/
def Uniform (test : α → Except ε Bool) (l : List α) : Prop :=
  ∀ a ∈ l, ∀ b ∈ l, test a ≠ .ok false → test b ≠ .ok false → test a = test b

theorem scan_eq_of_uniform {test : α → Except ε Bool} {l : List α} (h : Uniform test l) {a : α}
    (ha : a ∈ l) (hne : test a ≠ .ok false) : scan test l = test a := by
  have hscan : scan test l ≠ .ok false := fun hf ↦ hne (scan_eq_false_iff.mp hf a ha)
  obtain ⟨b, hb, hbne, heq⟩ := exists_of_scan_ne_false hscan
  exact heq.trans (h b hb a ha hbne hne)

theorem scan_perm_of_uniform {test : α → Except ε Bool} {l l' : List α} (h : Uniform test l)
    (hp : l'.Perm l) : scan test l' = scan test l := by
  by_cases hf : scan test l = .ok false
  · rw [hf, scan_eq_false_iff]
    intro a ha
    exact scan_eq_false_iff.mp hf a (hp.mem_iff.mp ha)
  · obtain ⟨a, ha, hne, heq⟩ := exists_of_scan_ne_false hf
    have h' : Uniform test l' := fun b hb c hc ↦ h b (hp.mem_iff.mp hb) c (hp.mem_iff.mp hc)
    rw [heq, scan_eq_of_uniform h' (hp.mem_iff.mpr ha) hne]

/-- An element whose test is not a plain `false` decides some order of the list. -/
theorem exists_perm_scan_eq {test : α → Except ε Bool} {l : List α} {a : α} (ha : a ∈ l)
    (hne : test a ≠ .ok false) : ∃ l', l'.Perm l ∧ scan test l' = test a := by
  obtain ⟨l₁, l₂, rfl⟩ := List.append_of_mem ha
  exact ⟨a :: (l₁ ++ l₂), List.perm_middle.symm, scan_cons_of_ne_false hne _⟩

/-- Walks that agree on all orders of the list come from uniform tests. -/
theorem uniform_of_scan_perm {test : α → Except ε Bool} {l : List α}
    (h : ∀ l' : List α, l'.Perm l → scan test l' = scan test l) : Uniform test l := by
  intro a ha b hb hane hbne
  obtain ⟨la, hla, hsa⟩ := exists_perm_scan_eq ha hane
  obtain ⟨lb, hlb, hsb⟩ := exists_perm_scan_eq hb hbne
  rw [← hsa, ← hsb, h la hla, h lb hlb]

/-- Adding an element keeps a walk that found nothing, unless the element is found itself. -/
theorem scan_insert_eq_false_iff {test : α → Except ε Bool} {l₁ l₂ : List α} {x : α} :
    scan test (l₁ ++ x :: l₂) = .ok false ↔
      test x = .ok false ∧ scan test (l₁ ++ l₂) = .ok false := by
  simp only [scan_eq_false_iff, List.mem_append, List.mem_cons]
  constructor
  · intro h
    exact ⟨h x (Or.inr (Or.inl rfl)), fun a ha ↦ h a (ha.imp_right Or.inr)⟩
  · rintro ⟨hx, h⟩ a (ha | rfl | ha)
    · exact h a (Or.inl ha)
    · exact hx
    · exact h a (Or.inr ha)

theorem scan_insert_of_eq_false {test : α → Except ε Bool} {x : α} (hx : test x = .ok false)
    (l₁ l₂ : List α) : scan test (l₁ ++ x :: l₂) = scan test (l₁ ++ l₂) := by
  induction l₁ with
  | nil => exact scan_cons_of_eq_false hx l₂
  | cons a l₁ ih =>
      by_cases ha : test a = .ok false
      · simp only [List.cons_append, scan_cons_of_eq_false ha, ih]
      · simp only [List.cons_append, scan_cons_of_ne_false ha]

end FirstHit
