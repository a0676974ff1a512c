import Vantage.Lib.Effect

/-!
# Computations beside which a record is kept

What is recorded has no influence on the computation, so a run with a record
returns what the run without it returns.
-/

namespace Effect

variable {ε σ τ ω α β : Type}

/-- The computation, with a second part of the state that stays as it is. -/
def beside (τ : Type) (m : Effect ε σ α) : Effect ε (σ × τ) α := fun s ↦
  ((m s.1).1, (m s.1).2, s.2)

/-- The event is recorded, and then the computation is made. -/
def notedBefore (event : ω) (m : Effect ε σ α) : Effect ε (σ × List ω) α := fun s ↦
  m.beside (List ω) (s.1, s.2 ++ [event])

/-- The computation is made, and what it returns is recorded. -/
def notedAfter (event : α → ω) (m : Effect ε σ α) : Effect ε (σ × List ω) α := fun s ↦
  match m s.1 with
  | (.ok a, s') => (.ok a, s', s.2 ++ [event a])
  | (.error e, s') => (.error e, s', s.2)

theorem beside_of_eq {m : Effect ε σ α} {r : Except ε α} {s s' : σ} (h : m s = (r, s')) (t : τ) :
    m.beside τ (s, t) = (r, s', t) := by
  unfold beside
  rw [h]

theorem notedBefore_of_eq {event : ω} {m : Effect ε σ α} {r : Except ε α} {s s' : σ}
    (h : m s = (r, s')) (record : List ω) :
    notedBefore event m (s, record) = (r, s', record ++ [event]) :=
  beside_of_eq h _

theorem notedAfter_of_ok {event : α → ω} {m : Effect ε σ α} {a : α} {s s' : σ}
    (h : m s = (.ok a, s')) (record : List ω) :
    notedAfter event m (s, record) = (.ok a, s', record ++ [event a]) := by
  unfold notedAfter
  rw [h]

theorem notedAfter_of_error {event : α → ω} {m : Effect ε σ α} {e : ε} {s s' : σ}
    (h : m s = (.error e, s')) (record : List ω) :
    notedAfter event m (s, record) = (.error e, s', record) := by
  unfold notedAfter
  rw [h]

/-- What comes first leaves no record. -/
theorem beside_bind_notedAfter (event : β → ω) (m : Effect ε σ α) (f : α → Effect ε σ β) :
    (m.beside _ >>= fun a ↦ (f a).notedAfter event) = (m >>= f).notedAfter event := by
  funext ⟨s, record⟩
  rcases h : m s with ⟨result, s'⟩
  cases result with
  | error e =>
      rw [bind_of_error (beside_of_eq h record), notedAfter_of_error (bind_of_error h f)]
  | ok a =>
      rw [bind_of_ok (beside_of_eq h record), notedAfter, notedAfter, bind_of_ok h]

/-! ## Following -/

/-- The computation with a record does what the one without it does. -/
def Follows (n : Effect ε (σ × τ) α) (m : Effect ε σ α) : Prop :=
  ∀ s t, ∃ t', n (s, t) = ((m s).1, (m s).2, t')

theorem Follows.beside (m : Effect ε σ α) : Follows (m.beside τ) m := fun _ t ↦ ⟨t, rfl⟩

theorem Follows.notedBefore (event : ω) (m : Effect ε σ α) : Follows (notedBefore event m) m :=
  fun _ record ↦ ⟨record ++ [event], rfl⟩

theorem Follows.notedAfter (event : α → ω) (m : Effect ε σ α) :
    Follows (notedAfter event m) m := by
  intro s record
  rcases h : m s with ⟨result, s'⟩
  cases result with
  | error e => exact ⟨record, notedAfter_of_error h record⟩
  | ok a => exact ⟨record ++ [event a], notedAfter_of_ok h record⟩

theorem Follows.pure (a : α) : Follows (pure a : Effect ε (σ × τ) α) (pure a) :=
  fun _ t ↦ ⟨t, rfl⟩

theorem Follows.ofExcept (x : Except ε α) :
    Follows (ofExcept x : Effect ε (σ × τ) α) (ofExcept x) := fun _ t ↦ ⟨t, rfl⟩

theorem Follows.bind {n : Effect ε (σ × τ) α} {m : Effect ε σ α} {g : α → Effect ε (σ × τ) β}
    {f : α → Effect ε σ β} (hm : Follows n m) (hf : ∀ a, Follows (g a) (f a)) :
    Follows (n >>= g) (m >>= f) := by
  intro s t
  obtain ⟨t₁, hn⟩ := hm s t
  rcases h : m s with ⟨result, s'⟩
  rw [h] at hn
  cases result with
  | error e =>
      rw [bind_of_error h]
      exact ⟨t₁, bind_of_error hn g⟩
  | ok a =>
      rw [bind_of_ok h]
      obtain ⟨t₂, ha⟩ := hf a s' t₁
      exact ⟨t₂, (bind_of_ok hn g).trans ha⟩

theorem Follows.recover {n : Effect ε (σ × τ) α} {m : Effect ε σ α}
    {k : ε → Effect ε (σ × τ) α} {handler : ε → Effect ε σ α} (hm : Follows n m)
    (hk : ∀ e, Follows (k e) (handler e)) : Follows (n.recover k) (m.recover handler) := by
  intro s t
  obtain ⟨t₁, hn⟩ := hm s t
  rcases h : m s with ⟨result, s'⟩
  rw [h] at hn
  cases result with
  | error e =>
      rw [recover_of_error h]
      obtain ⟨t₂, he⟩ := hk e s' t₁
      exact ⟨t₂, (recover_of_error hn k).trans he⟩
  | ok a =>
      rw [recover_of_ok h]
      exact ⟨t₁, recover_of_ok hn k⟩

end Effect
