import Mathlib.Algebra.Order.Ring.Rat
import Mathlib.Data.Rat.Cast.Order
import Mathlib.Tactic.NormNum
import Vantage.Lib.CreditLine

/-!
# The rate limiter of the HTTP client

Calls hold the lock one after the other, in the order in which they arrive, also
while they sleep.
-/

namespace Vantage.Adapters

variable {α : Type*} [Field α] [LinearOrder α]

/-- `free` is when the last call gave back the lock. -/
structure TokenBucket (α : Type*) where
  rate : α
  tokens : α
  updated : α
  free : α

namespace TokenBucket

def init (ratePerSec now : α) : TokenBucket α where
  rate := max ratePerSec (1 / 10)
  tokens := max ratePerSec (1 / 10)
  updated := now
  free := now

def now (b : TokenBucket α) (arrival : α) : α := max arrival b.free

def refilled (b : TokenBucket α) (arrival : α) : α :=
  min b.rate (b.tokens + (b.now arrival - b.updated) * b.rate)

/-- The time of the last update is that before the sleep. -/
def take (b : TokenBucket α) (arrival : α) : TokenBucket α :=
  if b.refilled arrival < 1 then
    { b with
      tokens := 0
      updated := b.now arrival
      free := b.now arrival + (1 - b.refilled arrival) / b.rate }
  else
    { b with
      tokens := b.refilled arrival - 1
      updated := b.now arrival
      free := b.now arrival }

/-- The bucket after each call of a sequence of arrivals. -/
def takes (b : TokenBucket α) : List α → List (TokenBucket α)
  | [] => []
  | arrival :: arrivals => b.take arrival :: (b.take arrival).takes arrivals

/-- The times at which the calls complete. -/
def completions (b : TokenBucket α) (arrivals : List α) : List α :=
  (b.takes arrivals).map free

/-- The calls that complete in a window of time. -/
def completed (b : TokenBucket α) (arrivals : List α) (start stop : α) : List α :=
  (b.completions arrivals).filter fun time ↦ decide (start ≤ time ∧ time ≤ stop)

/-- No window sees more calls than the rate allows. -/
def HonoursRate (b : TokenBucket α) (arrivals : List α) : Prop :=
  ∀ start length : α, 0 ≤ length →
    ((b.completed arrivals start (start + length)).length : α) ≤ b.rate * length + b.rate + 1

/-! ## One call -/

variable {b : TokenBucket α} {arrival : α}

@[simp]
theorem rate_take (b : TokenBucket α) (arrival : α) : (b.take arrival).rate = b.rate := by
  unfold TokenBucket.take
  split_ifs <;> rfl

omit [Field α] in
theorem free_le_now (b : TokenBucket α) (arrival : α) : b.free ≤ b.now arrival := le_max_right _ _

variable [IsStrictOrderedRing α]

/-- What every call leaves: a bucket is within its rate, and empty after a sleep. -/
structure Sound (b : TokenBucket α) : Prop where
  rate_pos : 0 < b.rate
  tokens_nonneg : 0 ≤ b.tokens
  tokens_le : b.tokens ≤ b.rate
  updated_le : b.updated ≤ b.free
  empty : b.updated < b.free → b.tokens = 0

theorem sound_init (ratePerSec now : α) : (init ratePerSec now).Sound := by
  have hrate : (0 : α) < max ratePerSec (1 / 10) := lt_max_of_lt_right (by norm_num)
  exact ⟨hrate, hrate.le, le_rfl, le_rfl, fun h ↦ absurd h (lt_irrefl _)⟩

theorem Sound.take (hb : b.Sound) (arrival : α) : (b.take arrival).Sound := by
  unfold TokenBucket.take
  split_ifs with hshort
  · have hwait : 0 < (1 - b.refilled arrival) / b.rate :=
      div_pos (by linarith) hb.rate_pos
    exact ⟨hb.rate_pos, le_rfl, hb.rate_pos.le, by simpa using hwait.le, fun _ ↦ rfl⟩
  · have hcapped : b.refilled arrival ≤ b.rate := min_le_left _ _
    have htokens : 0 ≤ b.refilled arrival - 1 := by linarith [not_lt.mp hshort]
    refine ⟨hb.rate_pos, htokens, ?_, le_rfl, fun h ↦ absurd h (lt_irrefl _)⟩
    change b.refilled arrival - 1 ≤ b.rate
    linarith

/-- After a sleep the next call comes at least a second later. -/
def Rested (b : TokenBucket α) (arrival : α) : Prop :=
  b.updated < b.free → b.free + 1 ≤ arrival

instance (b : TokenBucket α) (arrival : α) : Decidable (b.Rested arrival) :=
  inferInstanceAs (Decidable (b.updated < b.free → b.free + 1 ≤ arrival))

/-- What the bucket holds when the time slept is not credited again. -/
def creditedOnce (b : TokenBucket α) (arrival : α) : α :=
  min b.rate (b.tokens + (b.now arrival - b.free) * b.rate)

theorem Sound.refilled_eq_of_rested (hb : b.Sound) (hrested : b.Rested arrival) :
    b.refilled arrival = b.creditedOnce arrival := by
  unfold refilled creditedOnce
  rcases hb.updated_le.eq_or_lt with hawake | hslept
  · rw [hawake]
  · -- the bucket is full either way
    have hsecond : b.free + 1 ≤ b.now arrival := (hrested hslept).trans (le_max_left _ _)
    have hfull : ∀ since : α, since ≤ b.free →
        b.rate ≤ b.tokens + (b.now arrival - since) * b.rate := by
      intro since hsince
      have hlong : 1 * b.rate ≤ (b.now arrival - since) * b.rate :=
        mul_le_mul_of_nonneg_right (by linarith) hb.rate_pos.le
      linarith [hb.tokens_nonneg]
    rw [min_eq_left (hfull _ hslept.le), min_eq_left (hfull _ le_rfl)]

/-- The time slept is credited again exactly when the call comes too early. -/
theorem Sound.refilled_eq_iff (hb : b.Sound) :
    b.refilled arrival = b.creditedOnce arrival ↔ b.Rested arrival := by
  refine ⟨fun heq hslept ↦ ?_, hb.refilled_eq_of_rested⟩
  by_contra hearly
  have hnow : b.now arrival < b.free + 1 := max_lt (not_le.mp hearly) (by linarith)
  have hshort : b.creditedOnce arrival < b.rate := by
    refine (min_le_right _ _).trans_lt ?_
    rw [hb.empty hslept, zero_add]
    exact mul_lt_of_lt_one_left hb.rate_pos (by linarith)
  have hmore : b.creditedOnce arrival < b.refilled arrival := by
    refine lt_min hshort ((min_le_right _ _).trans_lt ?_)
    apply add_lt_add_right
    exact mul_lt_mul_of_pos_right (by linarith) hb.rate_pos
  exact absurd heq hmore.ne'

/-- The credit of a bucket stands at the time it gives back the lock. -/
def account (b : TokenBucket α) : CreditLine.Account α := ⟨b.tokens, b.free⟩

theorem Sound.pays_take (hb : b.Sound) (hrested : b.Rested arrival) :
    CreditLine.Pays b.rate b.account (b.take arrival).account := by
  have hcredit : b.refilled arrival ≤ b.tokens + b.rate * (b.now arrival - b.free) := by
    rw [hb.refilled_eq_of_rested hrested, mul_comm]
    exact min_le_right _ _
  have hnow := free_le_now b arrival
  unfold TokenBucket.take
  split_ifs with hshort
  · have hwait : 0 < (1 - b.refilled arrival) / b.rate :=
      div_pos (by linarith) hb.rate_pos
    have hearned : b.rate * ((1 - b.refilled arrival) / b.rate) = 1 - b.refilled arrival :=
      mul_div_cancel₀ _ hb.rate_pos.ne'
    refine ⟨?_, ?_⟩
    · change b.free ≤ b.now arrival + (1 - b.refilled arrival) / b.rate
      linarith
    · change 0 + 1 ≤ b.tokens +
        b.rate * (b.now arrival + (1 - b.refilled arrival) / b.rate - b.free)
      linarith
  · refine ⟨hnow, ?_⟩
    change b.refilled arrival - 1 + 1 ≤ b.tokens + b.rate * (b.now arrival - b.free)
    linarith

/-! ## A run of calls -/

/-- Every call of the run has rested. -/
def RestedAll (b : TokenBucket α) : List α → Prop
  | [] => True
  | arrival :: arrivals => b.Rested arrival ∧ (b.take arrival).RestedAll arrivals

instance decidableRestedAll (b : TokenBucket α) :
    (arrivals : List α) → Decidable (b.RestedAll arrivals)
  | [] => inferInstanceAs (Decidable True)
  | arrival :: arrivals =>
      have := decidableRestedAll (b.take arrival) arrivals
      inferInstanceAs
        (Decidable (b.Rested arrival ∧ (b.take arrival).RestedAll arrivals))

theorem sound_of_mem_takes {arrivals : List α} (hb : b.Sound) {b' : TokenBucket α}
    (hmem : b' ∈ b.takes arrivals) : b'.Sound ∧ b'.rate = b.rate := by
  induction arrivals generalizing b with
  | nil => exact absurd hmem List.not_mem_nil
  | cons arrival arrivals ih =>
      rcases List.mem_cons.mp hmem with rfl | hmem
      · exact ⟨hb.take arrival, rate_take _ _⟩
      · obtain ⟨hsound, hrate⟩ := ih (hb.take arrival) hmem
        exact ⟨hsound, hrate.trans (rate_take _ _)⟩

theorem pays_takes {arrivals : List α} (hb : b.Sound) (hrested : b.RestedAll arrivals) :
    (b.account :: (b.takes arrivals).map account).IsChain (CreditLine.Pays b.rate) := by
  induction arrivals generalizing b with
  | nil => exact List.isChain_singleton _
  | cons arrival arrivals ih =>
      have hrest := ih (hb.take arrival) hrested.2
      rw [rate_take] at hrest
      exact List.isChain_cons_cons.mpr ⟨hb.pays_take hrested.1, hrest⟩

omit [IsStrictOrderedRing α] in
theorem length_completed (b : TokenBucket α) (arrivals : List α) (start stop : α) :
    (b.completed arrivals start stop).length =
      (((b.takes arrivals).map account).filter fun a ↦
        decide (start ≤ a.time ∧ a.time ≤ stop)).length := by
  unfold completed completions
  rw [List.filter_map, List.filter_map, List.length_map, List.length_map]
  rfl

/-- The rate holds along every run whose calls have rested. -/
theorem honoursRate_of_restedAll (ratePerSec now : α) (arrivals : List α)
    (hrested : (init ratePerSec now).RestedAll arrivals) :
    (init ratePerSec now).HonoursRate arrivals := by
  intro start length hlength
  have hsound := sound_init ratePerSec now
  have hcredit : ∀ a ∈ (init ratePerSec now).account ::
      ((init ratePerSec now).takes arrivals).map account,
      0 ≤ a.credit ∧ a.credit ≤ (init ratePerSec now).rate := by
    intro a hmem
    rcases List.mem_cons.mp hmem with rfl | hmem
    · exact ⟨hsound.tokens_nonneg, hsound.tokens_le⟩
    · obtain ⟨b', hmem', rfl⟩ := List.mem_map.mp hmem
      obtain ⟨hsound', hrate⟩ := sound_of_mem_takes hsound hmem'
      exact ⟨hsound'.tokens_nonneg, hsound'.tokens_le.trans hrate.le⟩
  have hwindow := CreditLine.length_window_le (pays_takes hsound hrested) hcredit
    hsound.rate_pos.le (le_add_of_nonneg_right hlength : start ≤ start + length)
  rw [length_completed]
  rwa [add_sub_cancel_left] at hwindow

theorem honoursRate_spaced :
    (init (1 : ℚ) 0).HonoursRate [0, 0, 2, 3] :=
  honoursRate_of_restedAll 1 0 [0, 0, 2, 3] (by decide +kernel)

/-- Five calls at once: the second and the fourth sleep, and pay for the next one as well. -/
theorem not_honoursRate_burst :
    ¬ ∀ (ratePerSec now : ℚ) (arrivals : List ℚ), 0 < ratePerSec →
      arrivals.Pairwise (· ≤ ·) → (∀ arrival ∈ arrivals, now ≤ arrival) →
        (init ratePerSec now).HonoursRate arrivals := by
  intro h
  have hburst := h 1 0 [0, 0, 0, 0, 0] (by norm_num) (by decide +kernel) (by decide +kernel) 0 2
    (by norm_num)
  have hlength : ((init (1 : ℚ) 0).completed [0, 0, 0, 0, 0] 0 (0 + 2)).length = 5 := by
    decide +kernel
  rw [hlength] at hburst
  exact absurd hburst (by decide +kernel)

end TokenBucket

end Vantage.Adapters
