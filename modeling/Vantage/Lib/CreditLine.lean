import Mathlib.Algebra.Order.Field.Basic
import Mathlib.Data.List.Chain
import Mathlib.Tactic.Linarith
import Mathlib.Tactic.Ring

/-!
# Units paid out of a credit that grows at a rate

An account earns at a fixed rate, never holds more than a capacity, and pays for
one unit at a time. The number of units in a window of time is then at most what
the window earns, the capacity, and one.
-/

namespace Vantage.CreditLine

variable {α : Type*} [Field α] [LinearOrder α]

/-- A credit, and the time at which it stands. -/
structure Account (α : Type*) where
  credit : α
  time : α

/-- One unit is paid for from one account to the next. -/
structure Pays (rate : α) (a a' : Account α) : Prop where
  later : a.time ≤ a'.time
  covered : a'.credit + 1 ≤ a.credit + rate * (a'.time - a.time)

variable {rate : α} {a : Account α} {as : List (Account α)}

theorem time_le_of_chain (hchain : (a :: as).IsChain (Pays rate)) {a' : Account α}
    (hmem : a' ∈ as) : a.time ≤ a'.time := by
  induction as generalizing a with
  | nil => exact absurd hmem List.not_mem_nil
  | cons b as ih =>
      obtain ⟨hpays, hrest⟩ := List.isChain_cons_cons.mp hchain
      rcases List.mem_cons.mp hmem with rfl | hmem
      · exact hpays.later
      · exact hpays.later.trans (ih hrest hmem)

variable [IsStrictOrderedRing α]

/-- What is paid for by `stop` is covered by the credit and by what is earned until then. -/
theorem length_until_le (hchain : (a :: as).IsChain (Pays rate))
    (hcredit : ∀ a' ∈ a :: as, 0 ≤ a'.credit) {stop : α} (hrate : 0 ≤ rate) (ha : a.time ≤ stop) :
    ((as.filter fun a' ↦ decide (a'.time ≤ stop)).length : α) ≤
      a.credit + rate * (stop - a.time) := by
  have hstart : 0 ≤ a.credit := hcredit a List.mem_cons_self
  have hearned : 0 ≤ rate * (stop - a.time) := mul_nonneg hrate (sub_nonneg.mpr ha)
  induction as generalizing a with
  | nil =>
      simp only [List.filter_nil, List.length_nil, Nat.cast_zero]
      linarith
  | cons b as ih =>
      obtain ⟨hpays, hrest⟩ := List.isChain_cons_cons.mp hchain
      by_cases hb : b.time ≤ stop
      · have hrestCredit : ∀ a' ∈ b :: as, 0 ≤ a'.credit := fun a' h ↦
          hcredit a' (List.mem_cons_of_mem _ h)
        have hpaid := ih hrest hrestCredit hb (hrestCredit b List.mem_cons_self)
          (mul_nonneg hrate (sub_nonneg.mpr hb))
        rw [List.filter_cons_of_pos (by simpa using hb), List.length_cons, Nat.cast_succ]
        calc ((as.filter fun a' ↦ decide (a'.time ≤ stop)).length : α) + 1
            ≤ (b.credit + 1) + rate * (stop - b.time) := by linarith
          _ ≤ (a.credit + rate * (b.time - a.time)) + rate * (stop - b.time) := by
              linarith [hpays.covered]
          _ = a.credit + rate * (stop - a.time) := by ring
      · have hnone : (b :: as).filter (fun a' ↦ decide (a'.time ≤ stop)) = [] := by
          rw [List.filter_eq_nil_iff]
          intro a' hmem
          have hle : b.time ≤ a'.time := by
            rcases List.mem_cons.mp hmem with rfl | hmem
            · exact le_rfl
            · exact time_le_of_chain hrest hmem
          simpa using lt_of_lt_of_le (not_le.mp hb) hle
        rw [hnone, List.length_nil, Nat.cast_zero]
        linarith

/-- A window holds what it earns, the capacity, and the unit that opens it. -/
theorem length_window_le (hchain : (a :: as).IsChain (Pays rate)) {capacity : α}
    (hcredit : ∀ a' ∈ a :: as, 0 ≤ a'.credit ∧ a'.credit ≤ capacity) (hrate : 0 ≤ rate)
    {start stop : α} (hwindow : start ≤ stop) :
    ((as.filter fun a' ↦ decide (start ≤ a'.time ∧ a'.time ≤ stop)).length : α) ≤
      rate * (stop - start) + capacity + 1 := by
  have hearned : 0 ≤ rate * (stop - start) := mul_nonneg hrate (sub_nonneg.mpr hwindow)
  have hcapacity : 0 ≤ capacity :=
    (hcredit a List.mem_cons_self).1.trans (hcredit a List.mem_cons_self).2
  induction as generalizing a with
  | nil =>
      simp only [List.filter_nil, List.length_nil, Nat.cast_zero]
      linarith
  | cons b as ih =>
      obtain ⟨-, hrest⟩ := List.isChain_cons_cons.mp hchain
      have hrestCredit : ∀ a' ∈ b :: as, 0 ≤ a'.credit ∧ a'.credit ≤ capacity := fun a' h ↦
        hcredit a' (List.mem_cons_of_mem _ h)
      by_cases hb : start ≤ b.time ∧ b.time ≤ stop
      · -- the first unit of the window: what follows it is covered by its credit
        have hafter : as.filter (fun a' ↦ decide (start ≤ a'.time ∧ a'.time ≤ stop)) =
            as.filter fun a' ↦ decide (a'.time ≤ stop) := by
          refine List.filter_congr fun a' hmem ↦ ?_
          have hstart : start ≤ a'.time := hb.1.trans (time_le_of_chain hrest hmem)
          simp [hstart]
        have hpaid := length_until_le hrest (fun a' h ↦ (hrestCredit a' h).1) hrate hb.2
        have hcapped := (hrestCredit b List.mem_cons_self).2
        have hlater : rate * (stop - b.time) ≤ rate * (stop - start) :=
          mul_le_mul_of_nonneg_left (by linarith [hb.1]) hrate
        rw [List.filter_cons_of_pos (by simpa using hb), List.length_cons, Nat.cast_succ, hafter]
        linarith
      · rw [List.filter_cons_of_neg (by simpa using hb)]
        exact ih hrest hrestCredit

end Vantage.CreditLine
