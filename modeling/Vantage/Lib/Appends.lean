import Vantage.Lib.Moves

/-!
# What a computation appends to a log

Appending events that have a property is a preorder on logs, so the rules for
moves apply to it.
-/

namespace Effect

variable {ε σ ω α β : Type} {P P' C : ω → Prop} {log log' : List ω}

/-- Only events with the property have been appended; the latest comes first. -/
def Appended (P : ω → Prop) (log log' : List ω) : Prop := ∃ new, log' = new ++ log ∧ ∀ e ∈ new, P e

instance : IsPreorder (List ω) (Appended P) where
  refl log := ⟨[], rfl, List.forall_mem_nil _⟩
  trans := by
    rintro log log' log'' ⟨new, rfl, hnew⟩ ⟨new', rfl, hnew'⟩
    refine ⟨new' ++ new, (List.append_assoc _ _ _).symm, fun e he ↦ ?_⟩
    exact (List.mem_append.mp he).elim (hnew' e) (hnew e)

theorem Appended.mono (h : Appended P log log') (hP : ∀ e, P e → P' e) : Appended P' log log' := by
  obtain ⟨new, hlog, hnew⟩ := h
  exact ⟨new, hlog, fun e he ↦ hP e (hnew e he)⟩

theorem Moves.mono {R R' : σ → σ → Prop} {m : Effect ε σ α} (h : Moves R m)
    (hR : ∀ s s', R s s' → R' s s') : Moves R' m := fun s ↦ hR s _ (h s)

theorem Logs.moves {m : Effect ε (List ω) α} {Q : α → Prop} (h : Logs P C m Q) :
    Moves (Appended P) m := by
  intro log
  obtain ⟨new, hlog, hnew, -⟩ := h log
  exact ⟨new, hlog, hnew⟩

/-- A loop moves when every round does that starts from a good result, and leaves a good one. -/
theorem Moves.foldl_of_returns {R : σ → σ → Prop} [IsPreorder σ R] {J : β → Prop}
    {f : β → α → Effect ε σ β} {l : List α}
    (hstep : ∀ a ∈ l, ∀ b, J b → Moves R (f b a) ∧ Returns (f b a) J) {b : β} (hb : J b) :
    Moves R (Effect.foldl f b l) := by
  induction l generalizing b with
  | nil => exact .pure b
  | cons a l ih =>
      obtain ⟨hmoves, hreturns⟩ := hstep a List.mem_cons_self b hb
      refine hmoves.bind_of_returns hreturns fun b' hb' ↦ ?_
      exact ih (fun a' ha' ↦ hstep a' (List.mem_cons_of_mem _ ha')) hb'

end Effect
