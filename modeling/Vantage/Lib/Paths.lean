import Vantage.Lib.Effect

/-!
# Computations as paths of labelled steps

A step changes a state and has a label. A computation that only makes such
steps goes a path, and what it does is told by the labels of the path and by
how the computation ends.
-/

namespace Effect

variable {ε σ ω α β : Type} {step : σ → ω → σ → Prop}

/-- The labels of steps that lead from the first state to the second, in order. -/
inductive Path (step : σ → ω → σ → Prop) : σ → List ω → σ → Prop
  | nil (s : σ) : Path step s [] s
  | cons {s s' s'' : σ} {e : ω} {es : List ω} (hfirst : step s e s')
      (hrest : Path step s' es s'') : Path step s (e :: es) s''

theorem Path.append {s s' s'' : σ} {es es' : List ω} (h : Path step s es s')
    (h' : Path step s' es' s'') : Path step s (es ++ es') s'' := by
  induction h with
  | nil => exact h'
  | cons hfirst _ ih => exact .cons hfirst (ih h')

/-- However the computation ends, it has gone a path, and `Q` tells the labels and the end. -/
def Goes (step : σ → ω → σ → Prop) (Q : List ω → Except ε α → Prop) (m : Effect ε σ α) : Prop :=
  ∀ s, ∃ es, Path step s es (m s).2 ∧ Q es (m s).1

variable {Q Q' : List ω → Except ε α → Prop} {R : List ω → Except ε β → Prop} {m : Effect ε σ α}

theorem Goes.ofExcept {x : Except ε α} (h : Q [] x) : Goes step Q (ofExcept x) :=
  fun s ↦ ⟨[], .nil s, h⟩

theorem Goes.pure {a : α} (h : Q [] (.ok a)) : Goes step Q (pure a) := fun s ↦ ⟨[], .nil s, h⟩

/-- One step, whose label may tell the result. -/
theorem Goes.one {label : Except ε α → ω} (h : ∀ s, step s (label (m s).1) (m s).2) :
    Goes step (fun es r ↦ es = [label r]) m := fun s ↦ ⟨[_], .cons (h s) (.nil _), rfl⟩

theorem Goes.mono (h : Goes step Q m) (hQ : ∀ es r, Q es r → Q' es r) : Goes step Q' m := by
  intro s
  obtain ⟨es, hpath, hend⟩ := h s
  exact ⟨es, hpath, hQ es _ hend⟩

/-- The first path and its result may be assumed on the second; an exception ends the first. -/
theorem Goes.bind {f : α → Effect ε σ β} (hm : Goes step Q m)
    (herror : ∀ es e, Q es (.error e) → R es (.error e))
    (hf : ∀ front a, Q front (.ok a) → Goes step (fun es r ↦ R (front ++ es) r) (f a)) :
    Goes step R (m >>= f) := by
  intro s
  obtain ⟨front, hpath, hend⟩ := hm s
  rcases hrun : m s with ⟨result, s'⟩
  rw [hrun] at hpath hend
  cases result with
  | error e =>
      rw [bind_of_error hrun]
      exact ⟨front, hpath, herror front e hend⟩
  | ok a =>
      rw [bind_of_ok hrun]
      obtain ⟨es, hrest, hlast⟩ := hf front a hend s'
      exact ⟨front ++ es, hpath.append hrest, hlast⟩

end Effect
