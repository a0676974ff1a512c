import Vantage.Lib.Moves

/-!
# Computations that write a word

A computation writes letters, such as the entries of a log, and may raise on
the way. It spells a word when it has written all of it on its return, and a
beginning of it when it raises.
-/

namespace Effect

variable {ε σ τ α β : Type} {R : List τ → σ → σ → Prop} {word word' : List τ} {Q : α → Prop}
  {m : Effect ε σ α}

/-- Writing nothing changes nothing of interest, and words are written one after the other. -/
structure Writing (R : List τ → σ → σ → Prop) : Prop where
  nil : ∀ s, R [] s s
  append : ∀ {w w' : List τ} {s s' s'' : σ}, R w s s' → R w' s' s'' → R (w ++ w') s s''

def Spells (R : List τ → σ → σ → Prop) (word : List τ) (m : Effect ε σ α) (Q : α → Prop) : Prop :=
  ∀ s, ∃ done, R done s (m s).2 ∧ done <+: word ∧ ∀ a, (m s).1 = .ok a → done = word ∧ Q a

theorem Spells.of_moves (h : Moves (R []) m) (hQ : Returns m Q) : Spells R [] m Q := fun s ↦
  ⟨[], h s, List.nil_prefix, fun a ha ↦ ⟨rfl, hQ s a _ (Prod.ext ha rfl)⟩⟩

/-- A computation that raises before it writes spells any word. -/
theorem Spells.of_error (h : ∀ s, ∃ e s', m s = (.error e, s') ∧ R [] s s') (word : List τ) :
    Spells R word m Q := by
  intro s
  obtain ⟨e, s', hrun, hnil⟩ := h s
  rw [hrun]
  exact ⟨[], hnil, List.nil_prefix, fun a ha ↦ absurd ha (by simp)⟩

theorem Spells.mono {Q' : α → Prop} (h : Spells R word m Q) (hQ : ∀ a, Q a → Q' a) :
    Spells R word m Q' := by
  intro s
  obtain ⟨done, hwritten, hprefix, hok⟩ := h s
  exact ⟨done, hwritten, hprefix, fun a ha ↦ ⟨(hok a ha).1, hQ a (hok a ha).2⟩⟩

section Sequence

variable (hR : Writing R)

include hR

theorem Writing.isPreorder : IsPreorder σ (R []) where
  refl := hR.nil
  trans _ _ _ h h' := hR.append h h'

theorem Spells.pure {a : α} (h : Q a) : Spells R [] (pure a : Effect ε σ α) Q :=
  .of_moves hR.nil (Returns.pure h)

/-- The second part goes on where the first one has stopped. -/
theorem Spells.bind {S : β → Prop} {f : α → Effect ε σ β} (hm : Spells R word m Q)
    (hf : ∀ a, Q a → Spells R word' (f a) S) : Spells R (word ++ word') (m >>= f) S := by
  intro s
  obtain ⟨done, hwritten, hprefix, hok⟩ := hm s
  rcases hrun : m s with ⟨result, s'⟩
  rw [hrun] at hwritten hok
  cases result with
  | error e =>
      rw [bind_of_error hrun]
      refine ⟨done, hwritten, hprefix.trans (List.prefix_append word word'), fun b hb ↦ ?_⟩
      exact absurd hb (by simp)
  | ok a =>
      obtain ⟨rfl, ha⟩ := hok a rfl
      obtain ⟨done', hwritten', hprefix', hok'⟩ := hf a ha s'
      rw [bind_of_ok hrun]
      refine ⟨done ++ done', hR.append hwritten hwritten', ?_, fun b hb ↦ ?_⟩
      · exact (List.prefix_append_right_inj done).mpr hprefix'
      · obtain ⟨rfl, hb⟩ := hok' b hb
        exact ⟨rfl, hb⟩

/-- A part that writes nothing comes before. -/
theorem Spells.after {S : β → Prop} {f : α → Effect ε σ β} (hm : Moves (R []) m)
    (hf : ∀ a, Spells R word (f a) S) : Spells R word (m >>= f) S := by
  have hquiet : Spells R [] m fun _ ↦ True := .of_moves hm (Returns.trivial m)
  exact .bind hR hquiet fun a _ ↦ hf a

/-- A part that writes nothing comes last. -/
theorem Spells.last {S : β → Prop} {f : α → Effect ε σ β} (hm : Spells R word m Q)
    (hf : ∀ a, Q a → Spells R [] (f a) S) : Spells R word (m >>= f) S := by
  rw [← List.append_nil word]
  exact .bind hR hm hf

end Sequence

end Effect
