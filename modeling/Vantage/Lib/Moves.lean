import Vantage.Lib.Effect

/-!
# How a computation moves the state

A relation between the states before and after a computation that holds
however it ends. For a preorder, what is made of moves is a move.
-/

namespace Effect

variable {ε σ α β : Type} {R : σ → σ → Prop} {m : Effect ε σ α}

/-- However the computation ends, the state has moved along `R`. -/
def Moves (R : σ → σ → Prop) (m : Effect ε σ α) : Prop := ∀ s, R s (m s).2

theorem Moves.of_run (h : Moves R m) {s s' : σ} {result : Except ε α} (hrun : m s = (result, s')) :
    R s s' := by
  have hmoves := h s
  rwa [hrun] at hmoves

theorem Moves.total {f : σ → α × σ} (h : ∀ s, R s (f s).2) :
    Moves R (total f : Effect ε σ α) := h

section Preorder

variable [IsPreorder σ R]

theorem Moves.pure (a : α) : Moves R (pure a : Effect ε σ α) := fun s ↦ refl_of R s

theorem Moves.get : Moves R (get : Effect ε σ σ) := fun s ↦ refl_of R s

theorem Moves.ofExcept (x : Except ε α) : Moves R (ofExcept x : Effect ε σ α) := fun s ↦ refl_of R s

/-- From one state, what the first part returns may be assumed on the second. -/
theorem rel_bind {f : α → Effect ε σ β} {s : σ} (hm : R s (m s).2)
    (hf : ∀ a s', m s = (.ok a, s') → R s' (f a s').2) : R s ((m >>= f) s).2 := by
  rcases hrun : m s with ⟨result, s'⟩
  rw [hrun] at hm
  cases result with
  | error e =>
      rw [Effect.bind_of_error hrun]
      exact hm
  | ok a =>
      rw [Effect.bind_of_ok hrun]
      exact trans_of R hm (hf a s' hrun)

theorem Moves.bind_of_ok {f : α → Effect ε σ β} (hm : Moves R m)
    (hf : ∀ s a s', m s = (.ok a, s') → R s' (f a s').2) : Moves R (m >>= f) :=
  fun s ↦ rel_bind (hm s) (hf s)

/-- What the first part returns, and from where, may be assumed on the second. -/
theorem Moves.bind_of_run {f : α → Effect ε σ β} (hm : Moves R m)
    (hf : ∀ s a s', m s = (.ok a, s') → Moves R (f a)) : Moves R (m >>= f) :=
  hm.bind_of_ok fun s a s' hrun ↦ hf s a s' hrun s'

theorem Moves.bind {f : α → Effect ε σ β} (hm : Moves R m) (hf : ∀ a, Moves R (f a)) :
    Moves R (m >>= f) := hm.bind_of_ok fun _ a s' _ ↦ hf a s'

theorem Moves.bind_of_returns {Q : α → Prop} {f : α → Effect ε σ β} (hm : Moves R m)
    (hQ : Returns m Q) (hf : ∀ a, Q a → Moves R (f a)) : Moves R (m >>= f) :=
  hm.bind_of_ok fun s a s' hrun ↦ hf a (hQ s a s' hrun) s'

theorem Moves.recover {handler : ε → Effect ε σ α} (hm : Moves R m)
    (hhandler : ∀ e, Moves R (handler e)) : Moves R (m.recover handler) := by
  intro s
  rcases hrun : m s with ⟨result, s'⟩
  have hfirst := hm.of_run hrun
  cases result with
  | ok a =>
      rw [recover_of_ok hrun]
      exact hfirst
  | error e =>
      rw [recover_of_error hrun]
      exact trans_of R hfirst (hhandler e s')

theorem Moves.foldl {f : β → α → Effect ε σ β} {l : List α}
    (h : ∀ a ∈ l, ∀ b, Moves R (f b a)) (b : β) : Moves R (Effect.foldl f b l) := by
  induction l generalizing b with
  | nil => exact .pure b
  | cons a l ih =>
      refine (h a List.mem_cons_self b).bind fun b' ↦ ?_
      exact ih (fun a' ha' ↦ h a' (List.mem_cons_of_mem _ ha')) b'

theorem Moves.collect {f : α → Effect ε σ (List β)} {l : List α} (h : ∀ a ∈ l, Moves R (f a)) :
    Moves R (Effect.collect f l) := by
  induction l with
  | nil => exact .pure []
  | cons a l ih =>
      refine (h a List.mem_cons_self).bind fun _ ↦ ?_
      exact (ih fun a' ha' ↦ h a' (List.mem_cons_of_mem _ ha')).bind fun _ ↦ .pure _

end Preorder

/-- What is made of a result does not change the state. -/
theorem snd_bind_pure (m : Effect ε σ α) (g : α → β) (s : σ) :
    ((m >>= fun a ↦ pure (g a)) s).2 = (m s).2 := by
  rcases hrun : m s with ⟨result, s'⟩
  cases result with
  | error e => rw [Effect.bind_of_error hrun]
  | ok a => rw [Effect.bind_of_ok hrun, pure_apply]

/-- What every step of a loop keeps holds of its result and the state then. -/
theorem foldl_ok_invariant {f : β → α → Effect ε σ β} {J : β → σ → Prop} {l : List α}
    (hstep : ∀ a ∈ l, ∀ b s b' s', J b s → f b a s = (.ok b', s') → J b' s') {b b' : β} {s s' : σ}
    (hJ : J b s) (hrun : Effect.foldl f b l s = (.ok b', s')) : J b' s' := by
  induction l generalizing b s with
  | nil =>
      obtain ⟨rfl, rfl⟩ := eq_of_pure hrun
      exact hJ
  | cons a l ih =>
      obtain ⟨b₁, s₁, hfirst, hrest⟩ := exists_of_bind_ok hrun
      refine ih (fun a' ha' ↦ hstep a' (List.mem_cons_of_mem _ ha')) ?_ hrest
      exact hstep a List.mem_cons_self b s b₁ s₁ hJ hfirst

/-! ## Time -/

variable {T : Type} [Preorder T] {time : σ → T}

/-- The state is not earlier than before. -/
def NotEarlier (time : σ → T) (s s' : σ) : Prop := time s ≤ time s'

instance : IsPreorder σ (NotEarlier time) where
  refl s := le_refl (time s)
  trans _ _ _ h h' := le_trans (α := T) h h'

/-- However the computation ends, time has not gone back. -/
abbrev Rises (time : σ → T) (m : Effect ε σ α) : Prop := Moves (NotEarlier time) m

end Effect
