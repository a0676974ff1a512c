import Vantage.Lib.Effect

/-!
# Histories of computations

Computations that change a part of the state when they return, and leave it
alone when they raise: after any history the part is what those that returned
have made of it, one after the other.
-/

namespace Effect

variable {ε σ τ α β ι : Type} {part : σ → τ} {f : τ → τ} {m : Effect ε σ α}

/-- The part is changed by `f` if the computation returns, and not at all if it raises. -/
def Revises (part : σ → τ) (f : τ → τ) (m : Effect ε σ α) : Prop :=
  ∀ s, part (m s).2 = if (m s).1.isOk then f (part s) else part s

theorem Keeps.revises (h : Keeps part m) : Revises part id m := by
  intro s
  rw [h s]
  split <;> rfl

theorem Revises.raise (e : ε) : Revises part f (raise e : Effect ε σ α) := fun _ ↦ rfl

/-- What is kept before the change may be used in it. -/
theorem Keeps.bind_revises {k : α → Effect ε σ β} (hm : Keeps part m)
    (hk : ∀ s a s', m s = (.ok a, s') →
      part (k a s').2 = if (k a s').1.isOk then f (part s') else part s') :
    Revises part f (m >>= k) := by
  intro s
  rcases hrun : m s with ⟨result, s'⟩
  have hs : part s' = part s := by simpa [hrun] using hm s
  cases result with
  | error e =>
      rw [bind_of_error hrun, hs]
      rfl
  | ok a => rw [bind_of_ok hrun, hk s a s' hrun, hs]

theorem Revises.after {k : α → Effect ε σ β} (hm : Keeps part m)
    (hk : ∀ a, Revises part f (k a)) : Revises part f (m >>= k) :=
  hm.bind_revises fun _ a s' _ ↦ hk a s'

/-- Computations one after the other, each with how it ended. -/
def history (m : ι → Effect ε σ α) : List ι → σ → List (ι × Except ε α) × σ
  | [], s => ([], s)
  | i :: is, s =>
      let (result, s') := m i s
      let (rest, last) := history m is s'
      ((i, result) :: rest, last)

/-- The entries of a history that returned. -/
def returned (entries : List (ι × Except ε α)) : List ι :=
  (entries.filter fun entry ↦ entry.2.isOk).map Prod.fst

theorem map_fst_history (m : ι → Effect ε σ α) (is : List ι) (s : σ) :
    (history m is s).1.map Prod.fst = is := by
  induction is generalizing s with
  | nil => rfl
  | cons i is ih => exact congrArg (i :: ·) (ih (m i s).2)

theorem mem_of_mem_returned {m : ι → Effect ε σ α} {is : List ι} {s : σ} {i : ι}
    (h : i ∈ returned (history m is s).1) : i ∈ is := by
  rw [← map_fst_history m is s]
  obtain ⟨entry, hentry, rfl⟩ := List.mem_map.mp h
  exact List.mem_map_of_mem (List.mem_of_mem_filter hentry)

/-- What returned in a history returned from some state. -/
theorem exists_of_mem_returned {m : ι → Effect ε σ α} {is : List ι} {s : σ} {i : ι}
    (h : i ∈ returned (history m is s).1) : i ∈ is ∧ ∃ s' a s'', m i s' = (.ok a, s'') := by
  refine ⟨mem_of_mem_returned h, ?_⟩
  induction is generalizing s with
  | nil => exact absurd h List.not_mem_nil
  | cons j is ih =>
      rcases hrun : m j s with ⟨result, s'⟩
      have hcons : returned (history m (j :: is) s).1 =
          if result.isOk then j :: returned (history m is s').1
          else returned (history m is s').1 := by
        cases hresult : result.isOk <;> simp [returned, history, hrun, hresult]
      rw [hcons] at h
      cases result with
      | error e => exact ih h
      | ok a =>
          rcases List.mem_cons.mp h with rfl | h
          · exact ⟨s, a, s', hrun⟩
          · exact ih h

theorem part_history {m : ι → Effect ε σ α} {f : ι → τ → τ} {is : List ι}
    (h : ∀ i ∈ is, Revises part (f i) (m i)) (s : σ) :
    part (history m is s).2 =
      (returned (history m is s).1).foldl (fun t i ↦ f i t) (part s) := by
  induction is generalizing s with
  | nil => rfl
  | cons i is ih =>
      obtain ⟨hi, his⟩ := List.forall_mem_cons.mp h
      have hstep := hi s
      have hrest := ih his (m i s).2
      rw [hstep] at hrest
      cases hresult : (m i s).1.isOk with
      | true =>
          rw [hresult, if_pos rfl] at hrest
          have hreturned : returned (history m (i :: is) s).1 =
              i :: returned (history m is (m i s).2).1 := by
            simp [returned, history, hresult]
          rw [hreturned, List.foldl_cons]
          exact hrest
      | false =>
          rw [hresult, if_neg Bool.false_ne_true] at hrest
          have hreturned : returned (history m (i :: is) s).1 =
              returned (history m is (m i s).2).1 := by
            simp [returned, history, hresult]
          rw [hreturned]
          exact hrest

end Effect
