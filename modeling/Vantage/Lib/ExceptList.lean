import Mathlib.Tactic

/-!
# Fallible functions over a list
-/

namespace ExceptList

variable {α β ε : Type*} {f : α → Except ε β}

/-- A sequence that succeeds succeeds in its first part. -/
theorem exists_of_bind_ok {α' β' : Type*} {x : Except ε α'} {g : α' → Except ε β'} {b : β'}
    (h : x.bind g = .ok b) : ∃ a, x = .ok a ∧ g a = .ok b := by
  cases x with
  | error e => exact absurd h (by simp [Except.bind])
  | ok a => exact ⟨a, rfl, h⟩

theorem bind_eq_ok_iff {α' β' : Type _} {x : Except ε α'} {g : α' → Except ε β'} {b : β'} :
    (x >>= g) = .ok b ↔ ∃ a, x = .ok a ∧ g a = .ok b := by
  cases x with
  | error e => exact iff_of_false (by simp [bind, Except.bind]) (by simp)
  | ok a => exact ⟨fun h ↦ ⟨a, rfl, h⟩, by rintro ⟨_, ⟨⟩, h⟩; exact h⟩

/-- An element of the first list has a partner in the second. -/
theorem exists_of_forall₂ {R : α → β → Prop} {l : List α} {bs : List β} (h : List.Forall₂ R l bs)
    {a : α} (ha : a ∈ l) : ∃ b ∈ bs, R a b := by
  induction h with
  | nil => exact absurd ha List.not_mem_nil
  | @cons a' b l bs hab _ ih =>
      rcases List.mem_cons.mp ha with rfl | ha
      · exact ⟨b, List.mem_cons_self, hab⟩
      · obtain ⟨b', hb', hR⟩ := ih ha
        exact ⟨b', List.mem_cons_of_mem _ hb', hR⟩

/-- What every step of a fold keeps holds at its end. -/
theorem foldlM_invariant {σ : Type*} {step : σ → α → Except ε σ} {P : σ → Prop} {l : List α}
    (hstep : ∀ a ∈ l, ∀ s s', P s → step s a = .ok s' → P s') {s s' : σ} (hs : P s)
    (h : l.foldlM step s = .ok s') : P s' := by
  induction l generalizing s with
  | nil =>
      obtain rfl := Except.ok.inj h
      exact hs
  | cons a l ih =>
      rw [List.foldlM_cons] at h
      obtain ⟨s₁, hfirst, hrest⟩ := exists_of_bind_ok h
      refine ih (fun a' ha' ↦ hstep a' (List.mem_cons_of_mem _ ha')) ?_ hrest
      exact hstep a List.mem_cons_self s s₁ hs hfirst

/-- A fold that appends one result for each element. -/
theorem forall₂_of_foldlM_append {step : List β → α → Except ε (List β)} {R : α → β → Prop}
    {l : List α} {s s' : List β}
    (hstep : ∀ a ∈ l, ∀ s s', step s a = .ok s' → ∃ b, s' = s ++ [b] ∧ R a b)
    (h : l.foldlM step s = .ok s') : ∃ bs, s' = s ++ bs ∧ List.Forall₂ R l bs := by
  induction l generalizing s with
  | nil =>
      obtain rfl := Except.ok.inj h
      exact ⟨[], by simp, .nil⟩
  | cons a l ih =>
      rw [List.foldlM_cons] at h
      obtain ⟨s₁, hfirst, hrest⟩ := exists_of_bind_ok h
      obtain ⟨b, rfl, hb⟩ := hstep a List.mem_cons_self s s₁ hfirst
      obtain ⟨bs, rfl, hbs⟩ := ih (fun a' ha' ↦ hstep a' (List.mem_cons_of_mem _ ha')) hrest
      exact ⟨b :: bs, by simp, .cons hb hbs⟩

theorem mapM_cons_ok {a : α} {l : List α} {b : β} {bs : List β} (ha : f a = .ok b)
    (hl : l.mapM f = .ok bs) : (a :: l).mapM f = .ok (b :: bs) := by
  rw [List.mapM_cons, ha, hl]
  rfl

theorem mapM_eq_ok {l : List α} {bs : List β} (h : List.Forall₂ (fun a b ↦ f a = .ok b) l bs) :
    l.mapM f = .ok bs := by
  induction h with
  | nil => rfl
  | cons ha _ ih => exact mapM_cons_ok ha ih

theorem forall₂_of_mapM_eq_ok {l : List α} {bs : List β} (h : l.mapM f = .ok bs) :
    List.Forall₂ (fun a b ↦ f a = .ok b) l bs := by
  induction l generalizing bs with
  | nil =>
      obtain rfl := Except.ok.inj h
      exact .nil
  | cons a l ih =>
      rw [List.mapM_cons] at h
      obtain ⟨b, hb, h⟩ := exists_of_bind_ok h
      obtain ⟨bs', hbs', h⟩ := exists_of_bind_ok h
      obtain rfl := Except.ok.inj h
      exact .cons hb (ih hbs')

/-- The results of a map that succeeds are those of the elements. -/
theorem mem_of_mapM_eq_ok {l : List α} {bs : List β} (h : l.mapM f = .ok bs) {b : β} :
    b ∈ bs ↔ ∃ a ∈ l, f a = .ok b := by
  have hall := forall₂_of_mapM_eq_ok h
  clear h
  induction hall with
  | nil => simp
  | @cons a b' l bs hb _ ih =>
      simp only [List.mem_cons, ih, exists_eq_or_imp, hb, Except.ok.injEq]
      exact or_congr_left eq_comm

theorem exists_mapM_eq_ok {l : List α} (h : ∀ a ∈ l, ∃ b, f a = .ok b) :
    ∃ bs, l.mapM f = .ok bs ∧ List.Forall₂ (fun a b ↦ f a = .ok b) l bs := by
  induction l with
  | nil => exact ⟨[], rfl, .nil⟩
  | cons a l ih =>
      obtain ⟨b, hb⟩ := h a (by simp)
      obtain ⟨bs, hbs, hall⟩ := ih fun a' ha' ↦ h a' (List.mem_cons_of_mem a ha')
      exact ⟨b :: bs, mapM_cons_ok hb hbs, .cons hb hall⟩

/-- A map succeeds when it does on every element. -/
theorem exists_mapM_iff {l : List α} : (∃ bs, l.mapM f = .ok bs) ↔ ∀ a ∈ l, ∃ b, f a = .ok b := by
  constructor
  · rintro ⟨bs, hbs⟩ a ha
    obtain ⟨b, -, hb⟩ := exists_of_forall₂ (forall₂_of_mapM_eq_ok hbs) ha
    exact ⟨b, hb⟩
  · intro h
    obtain ⟨bs, hbs, -⟩ := exists_mapM_eq_ok h
    exact ⟨bs, hbs⟩

/-- A failing element makes the whole map fail. -/
theorem exists_mapM_eq_error {l : List α} {a : α} (ha : a ∈ l) {e : ε} (he : f a = .error e) :
    ∃ e', l.mapM f = .error e' := by
  induction l with
  | nil => simp at ha
  | cons b l ih =>
      rw [List.mapM_cons]
      cases hb : f b with
      | error e' => exact ⟨e', rfl⟩
      | ok c =>
          rcases List.mem_cons.mp ha with rfl | ha
          · rw [he] at hb
            simp at hb
          · obtain ⟨e', he'⟩ := ih ha
            exact ⟨e', by rw [he']; rfl⟩

/-- An error of the map is an error of one of the elements. -/
theorem exists_of_mapM_eq_error {l : List α} {e : ε} (h : l.mapM f = .error e) :
    ∃ a ∈ l, f a = .error e := by
  induction l with
  | nil => exact absurd h (by simp [pure, Except.pure])
  | cons b l ih =>
      rw [List.mapM_cons] at h
      cases hb : f b with
      | error e' =>
          rw [hb] at h
          obtain rfl : e' = e := Except.error.inj h
          exact ⟨b, by simp, hb⟩
      | ok c =>
          rw [hb] at h
          cases hl : l.mapM f with
          | error e' =>
              rw [hl] at h
              obtain rfl : e' = e := Except.error.inj h
              obtain ⟨a, ha, hae⟩ := ih hl
              exact ⟨a, List.mem_cons_of_mem b ha, hae⟩
          | ok bs =>
              rw [hl] at h
              change Except.ok (c :: bs) = .error e at h
              simp at h

end ExceptList
