import Mathlib.Data.List.Sort
import Mathlib.Tactic

/-!
# When a stable sort follows another order

A list is sorted stably by one order. The result is in another order just when
the two agree on every pair of the list, the earlier element first.
-/

namespace StableSort

variable {α : Type*} {R : α → α → Prop} [DecidableRel R] {a b : α} {l : List α}

/-- Elements that are all in order among each other stay as they stand. -/
theorem filter_insertionSort {p : α → Bool} (hp : ∀ a b, p a = true → p b = true → R a b)
    (l : List α) : (l.insertionSort R).filter p = l.filter p := by
  have hordered : (l.filter p).Pairwise R := by
    apply List.pairwise_of_forall_mem_list
    intro a ha b hb
    exact hp a b (List.mem_filter.mp ha).2 (List.mem_filter.mp hb).2
  have hkept : (l.filter p).Sublist (l.insertionSort R) :=
    List.sublist_insertionSort hordered List.filter_sublist
  have hsublist := hkept.filter p
  rw [List.filter_filter] at hsublist
  simp only [Bool.and_self] at hsublist
  refine (hsublist.eq_of_length ?_).symm
  exact (((List.perm_insertionSort R l).filter p).length_eq).symm

/-- Of two elements of a list one stands in front of the other. -/
theorem pair_sublist_or (ha : a ∈ l) (hb : b ∈ l) (hne : a ≠ b) :
    [a, b].Sublist l ∨ [b, a].Sublist l := by
  induction l with
  | nil => exact absurd ha List.not_mem_nil
  | cons c l ih =>
      rcases List.mem_cons.mp ha with rfl | hal
      · left
        have hbl := (List.mem_cons.mp hb).resolve_left hne.symm
        exact (List.singleton_sublist.mpr hbl).cons_cons a
      · rcases List.mem_cons.mp hb with rfl | hbl
        · right
          exact (List.singleton_sublist.mpr hal).cons_cons b
        · exact (ih hal hbl).imp (·.cons c) (·.cons c)

variable [Std.Total R]

/-- Two elements that are in order both ways stand as they did before. -/
theorem pair_sublist_of_insertionSort (hab : R a b) (hba : R b a)
    (h : [a, b].Sublist (l.insertionSort R)) : [a, b].Sublist l := by
  classical
  have haa := Std.Total.total (r := R) a a
  have hbb := Std.Total.total (r := R) b b
  rw [or_self] at haa hbb
  have hkept := filter_insertionSort (R := R) (p := fun c ↦ decide (c = a ∨ c = b)) (by
    intro c d hc hd
    rcases of_decide_eq_true hc with rfl | rfl <;> rcases of_decide_eq_true hd with rfl | rfl <;>
      assumption) l
  have hpair := h.filter fun c ↦ decide (c = a ∨ c = b)
  rw [hkept] at hpair
  simpa using hpair.trans List.filter_sublist

variable [IsTrans α R]

/-- The sorted list is in the order `S` just when `S` decides the pairs of the list like `R`. -/
theorem pairwise_insertionSort_iff {S : α → α → Prop} (hS : ∀ a b, S a b ∨ S b a)
    (htie : ∀ a b, S a b → S b a → R a b) :
    (l.insertionSort R).Pairwise S ↔ l.Pairwise fun a b ↦ R a b ↔ S a b := by
  simp only [List.pairwise_iff_forall_sublist]
  have hsorted : ∀ {a b}, [a, b].Sublist (l.insertionSort R) → R a b :=
    List.pairwise_iff_forall_sublist.mp (List.pairwise_insertionSort R l)
  constructor
  · intro hpairs a b hab
    constructor
    · exact fun hR ↦ hpairs (List.pair_sublist_insertionSort hR hab)
    · intro hSab
      by_contra hR
      -- the sort turns the pair round, so that it is tied under `S`
      have hRba := (Std.Total.total (r := R) a b).resolve_left hR
      have hmem : ∀ c ∈ [a, b], c ∈ l.insertionSort R := fun c hc ↦
        (List.mem_insertionSort R).mpr (hab.subset hc)
      have hne : b ≠ a := by
        rintro rfl
        exact hR hRba
      have hturned : [b, a].Sublist (l.insertionSort R) :=
        (pair_sublist_or (hmem b (by simp)) (hmem a (by simp)) hne).resolve_right
          fun h ↦ hR (hsorted h)
      exact hR (htie a b hSab (hpairs hturned))
  · intro hagree a b hab
    have hRab := hsorted hab
    by_cases hsame : a = b
    · subst hsame
      exact (or_self _).mp (hS a a)
    by_cases hRba : R b a
    · exact (hagree (pair_sublist_of_insertionSort hRab hRba hab)).mp hRab
    · have hmem : ∀ c ∈ [a, b], c ∈ l := fun c hc ↦ (List.mem_insertionSort R).mp (hab.subset hc)
      rcases pair_sublist_or (hmem a (by simp)) (hmem b (by simp)) hsame with h | h
      · exact (hagree h).mp hRab
      · exact (hS a b).resolve_right fun hSba ↦ hRba ((hagree h).mpr hSba)

end StableSort
