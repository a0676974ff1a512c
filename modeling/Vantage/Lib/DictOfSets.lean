import Vantage.Lib.Dict

/-!
# Dictionaries of sets

A dictionary whose values are lists without repetition is a finite set of
pairs. Adding to the list of a key inserts a pair.
-/

namespace Dict

variable {κ α : Type*} [DecidableEq κ] {d : Dict κ (List α)}
  {s : Finset (κ × α)} {k : κ} {a : α}

/-- `d.setdefault(k, set()).add(a)`. -/
def add [DecidableEq α] (d : Dict κ (List α)) (k : κ) (a : α) : Dict κ (List α) :=
  let members := (d.get? k).getD []
  d.set k (if a ∈ members then members else members ++ [a])

/-- All pairs of the dictionary, in its order. -/
def pairs (d : Dict κ (List α)) : List (κ × α) := d.entries.flatMap fun e ↦ e.2.map fun a ↦ (e.1, a)

/-- The dictionary holds exactly these pairs, each once. -/
structure Holds (d : Dict κ (List α)) (s : Finset (κ × α)) : Prop where
  nodup : ∀ k, ((d.get? k).getD []).Nodup
  mem_iff : ∀ k a, a ∈ (d.get? k).getD [] ↔ (k, a) ∈ s

theorem holds_empty : Holds (empty : Dict κ (List α)) ∅ where
  nodup k := List.nodup_nil
  mem_iff k a := by simp

theorem Holds.add [DecidableEq α] (h : d.Holds s) (k : κ) (a : α) :
    (d.add k a).Holds (insert (k, a) s) where
  nodup k' := by
    unfold Dict.add
    by_cases hk : k' = k
    · subst hk
      rw [get?_set_self, Option.getD_some]
      split_ifs with ha
      · exact h.nodup k'
      · refine List.nodup_append.mpr ⟨h.nodup k', List.nodup_singleton a, ?_⟩
        intro b hb b' hb' heq
        apply ha
        rwa [← List.mem_singleton.mp hb', ← heq]
    · rw [get?_set_of_ne d hk]
      exact h.nodup k'
  mem_iff k' a' := by
    unfold Dict.add
    rw [Finset.mem_insert, Prod.mk.injEq, ← h.mem_iff]
    by_cases hk : k' = k
    · subst hk
      rw [get?_set_self, Option.getD_some]
      split_ifs with ha
      · refine ⟨Or.inr, ?_⟩
        rintro (⟨-, rfl⟩ | hmem)
        · exact ha
        · exact hmem
      · rw [List.mem_append, List.mem_singleton, or_comm]
        simp
    · rw [get?_set_of_ne d hk]
      simp [hk]

theorem mem_pairs_iff : (k, a) ∈ d.pairs ↔ a ∈ (d.get? k).getD [] := by
  rw [pairs, List.mem_flatMap]
  constructor
  · rintro ⟨e, he, hmem⟩
    obtain ⟨a', ha', heq⟩ := List.mem_map.mp hmem
    obtain ⟨rfl, rfl⟩ := Prod.mk.inj heq
    rwa [d.get?_eq_some_iff.mpr he, Option.getD_some]
  · intro hmem
    cases hget : d.get? k with
    | none =>
        rw [hget, Option.getD_none] at hmem
        exact absurd hmem List.not_mem_nil
    | some members =>
        rw [hget, Option.getD_some] at hmem
        exact ⟨(k, members), d.get?_eq_some_iff.mp hget, List.mem_map_of_mem hmem⟩

theorem Holds.nodup_pairs (h : d.Holds s) : d.pairs.Nodup := by
  rw [Dict.pairs, List.nodup_flatMap]
  constructor
  · rintro ⟨k, members⟩ he
    have hmembers := h.nodup k
    rw [d.get?_eq_some_iff.mpr he, Option.getD_some] at hmembers
    exact hmembers.map fun a a' heq ↦ (Prod.mk.inj heq).2
  · have hkeys : d.entries.Pairwise fun e e' ↦ e.1 ≠ e'.1 := List.pairwise_map.mp d.nodup
    refine hkeys.imp fun hne p hp hp' ↦ ?_
    obtain ⟨_, _, rfl⟩ := List.mem_map.mp hp
    obtain ⟨_, _, heq⟩ := List.mem_map.mp hp'
    exact hne (Prod.mk.inj heq).1.symm

/-- The sizes of the sets add up to the number of pairs. -/
theorem Holds.card (h : d.Holds s) : (d.values.map List.length).sum = s.card := by
  classical
  have hpairs : d.pairs.toFinset = s := by
    ext ⟨k, a⟩
    rw [List.mem_toFinset, mem_pairs_iff, h.mem_iff]
  rw [← hpairs, List.toFinset_card_of_nodup h.nodup_pairs, Dict.pairs, List.length_flatMap, values,
    List.map_map]
  refine congrArg List.sum (List.map_congr_left fun e _ ↦ ?_)
  exact (List.length_map _).symm

end Dict
