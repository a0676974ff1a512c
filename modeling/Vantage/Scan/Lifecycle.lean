import Vantage.Persistence.Repositories

/-!
# The lifecycle of a scan

A change of state is checked on the copy of the scan that the caller holds and
written to the row that all callers share.
-/

namespace Vantage.Scan

open Persistence

/-- `_TRANSITIONS`; a state without an entry has no way out. -/
def transitions : ScanState → List ScanState
  | .created => [.queued, .cancelled]
  | .queued => [.planning, .cancelling, .cancelled]
  | .planning => [.running, .failed, .cancelling]
  | .running => [.correlating, .paused, .failed, .cancelling]
  | .paused => [.running, .cancelling, .cancelled]
  | .correlating => [.validating, .failed, .cancelling]
  | .validating => [.reporting, .failed, .cancelling]
  | .reporting => [.completed, .failed]
  | .cancelling => [.cancelled]
  | .completed => []
  | .cancelled => []
  | .failed => []

def canTransition (src dst : ScanState) : Bool := (transitions src).contains dst

theorem transitions_of_terminal : ∀ s ∈ terminalStates, transitions s = [] := by decide

/-- No edge leads back to the initial state, and only it leads to the queue. -/
theorem eq_created_of_canTransition_queued {src : ScanState} (h : canTransition src .queued = true) :
    src = .created := by
  cases src <;> first | rfl | exact absurd h (by decide)

theorem not_canTransition_created (src : ScanState) : canTransition src .created = false := by
  cases src <;> decide

variable {σ : Type}

/-- The fields of the scan after the change; the clock is read once for each timestamp. -/
def updatedScan (clock : σ → Time × σ) (scan : Scan) (dst : ScanState) (reason : Option String) :
    Effect PyError (Platform σ) Scan := do
  let scan := { scan with state := dst, stateReason := reason }
  let scan ←
    if dst = .running ∧ scan.startedAt = none then do
      let now ← outside (Effect.total clock)
      pure { scan with startedAt := some now }
    else pure scan
  if dst ∈ terminalStates then do
    let now ← outside (Effect.total clock)
    pure { scan with finishedAt := some now }
  else pure scan

def auditEntry (scan : Scan) (dst : ScanState) (reason : Option String) (now : Time) : AuditRow where
  tenantId := scan.tenantId
  actor := scan.createdBy
  action := "scan.state"
  resource := scan.id
  at_ := now
  detail := dst.value ++ ":" ++ reason.getD ""

/-- `Orchestrator._set_state`. -/
def setState (clock : σ → Time × σ) (scan : Scan) (dst : ScanState) (reason : Option String) :
    Effect PyError (Platform σ) Scan :=
  if scan.state = dst then pure scan
  else if canTransition scan.state dst = false then Effect.raise .illegalTransition
  else do
    let scan ← updatedScan clock scan dst reason
    let now ← outside (Effect.total clock)
    unitOfWork fun db ↦ .ok ((db.upsertScan scan).record (auditEntry scan dst reason now))
    pure scan

variable {clock : σ → Time × σ} {scan scan' : Scan} {dst : ScanState} {reason : Option String}
  {p p' : Platform σ}

theorem updatedScan_spec (clock : σ → Time × σ) (scan : Scan) (dst : ScanState)
    (reason : Option String) (p : Platform σ) :
    ∃ scan' w, updatedScan clock scan dst reason p = (.ok scan', { p with world := w }) ∧
      scan'.id = scan.id ∧ scan'.tenantId = scan.tenantId ∧ scan'.createdBy = scan.createdBy ∧
        scan'.state = dst := by
  unfold updatedScan
  by_cases hrunning : dst = .running ∧ scan.startedAt = none
  · obtain ⟨rfl, hstart⟩ := hrunning
    simp only [hstart, and_self, if_true]
    exact ⟨_, _, rfl, rfl, rfl, rfl, rfl⟩
  · simp only [hrunning, if_false]
    by_cases hterminal : dst ∈ terminalStates
    · simp only [hterminal, if_true]
      exact ⟨_, _, rfl, rfl, rfl, rfl, rfl⟩
    · simp only [hterminal, if_false]
      exact ⟨_, p.world, rfl, rfl, rfl, rfl, rfl⟩

/-- What a call can do: nothing, raise, or write the row of its own scan. -/
theorem setState_cases (clock : σ → Time × σ) (scan : Scan) (dst : ScanState)
    (reason : Option String) (p : Platform σ) :
    (scan.state = dst ∧ setState clock scan dst reason p = (.ok scan, p)) ∨
      (scan.state ≠ dst ∧ canTransition scan.state dst = false ∧
        setState clock scan dst reason p = (.error .illegalTransition, p)) ∨
      (scan.state ≠ dst ∧ canTransition scan.state dst = true ∧
        ∃ scan' entry w, scan'.id = scan.id ∧ scan'.state = dst ∧
          setState clock scan dst reason p =
            (.ok scan', ⟨(p.db.upsertScan scan').record entry, w⟩)) := by
  unfold setState
  split_ifs with hsame hillegal
  · exact Or.inl ⟨hsame, rfl⟩
  · exact Or.inr (Or.inl ⟨hsame, hillegal, rfl⟩)
  · obtain ⟨scan', w, hupdated, hid, -, -, hstate⟩ := updatedScan_spec clock scan dst reason p
    refine Or.inr (Or.inr ⟨hsame, by simpa using hillegal, scan',
      auditEntry scan' dst reason (clock w).1, (clock w).2, hid, hstate, ?_⟩)
    rw [Effect.bind_of_ok hupdated]
    rfl

/-! ## Several callers -/

/-- The shared tables and the copy of a scan that every caller holds. -/
structure Shared (C σ : Type) where
  platform : Platform σ
  copies : C → Scan

variable {C : Type} [DecidableEq C]

/-- A caller asks for a state, or reads its scan again. -/
inductive Call (C : Type) where
  | set (caller : C) (dst : ScanState) (reason : Option String)
  | load (caller : C)

/-- An exception leaves the copy of the caller as it was. -/
def perform (clock : σ → Time × σ) (s : Shared C σ) : Call C → Shared C σ
  | .set c dst reason =>
      match setState clock (s.copies c) dst reason s.platform with
      | (.ok scan, p) => ⟨p, Function.update s.copies c scan⟩
      | (.error _, p) => ⟨p, s.copies⟩
  | .load c =>
      match s.platform.db.getScan (s.copies c).id with
      | some scan => ⟨s.platform, Function.update s.copies c scan⟩
      | none => s

/-- The states of the row of scan `i` along a run. -/
def rowStates (clock : σ → Time × σ) (i : String) : List (Call C) → Shared C σ →
    List (Option ScanState)
  | [], s => [s.platform.db.storedState i]
  | call :: calls, s =>
      s.platform.db.storedState i :: rowStates clock i calls (perform clock s call)

/-- The row stays, is created, or moves along an edge. -/
def LegalChange (a b : Option ScanState) : Prop :=
  a = b ∨ a = none ∨ ∃ src dst, a = some src ∧ b = some dst ∧ canTransition src dst = true

/-- How often the row enters the queue, which is where a run of the scan starts. -/
def starts : List (Option ScanState) → ℕ
  | a :: b :: l => (if a ≠ b ∧ b = some .queued then 1 else 0) + starts (b :: l)
  | _ => 0

structure MovesLegally (row : List (Option ScanState)) : Prop where
  edges : row.IsChain LegalChange
  final : ∀ s ∈ terminalStates, ∀ before after, row = before ++ some s :: after →
    ∀ t ∈ after, t = some s
  once : starts row ≤ 1

/-! ## Consequences of legal changes -/

theorem LegalChange.of_terminal {s : ScanState} {b : Option ScanState} (hs : s ∈ terminalStates)
    (h : LegalChange (some s) b) : b = some s := by
  rcases h with h | h | ⟨src, dst, hsrc, rfl, hedge⟩
  · exact h.symm
  · exact absurd h (by simp)
  · obtain rfl := Option.some.inj hsrc
    rw [canTransition, transitions_of_terminal s hs] at hedge
    exact absurd hedge (by simp)

theorem eq_of_chain_of_terminal {s : ScanState} (hs : s ∈ terminalStates)
    {after : List (Option ScanState)} (h : (some s :: after).IsChain LegalChange) :
    ∀ t ∈ after, t = some s := by
  induction after with
  | nil => simp
  | cons b after ih =>
      rw [List.isChain_cons_cons] at h
      obtain rfl := h.1.of_terminal hs
      intro t ht
      rcases List.mem_cons.mp ht with rfl | ht
      · rfl
      · exact ih h.2 t ht

/-- Once the row is there and is past the initial state, it never enters the queue again. -/
theorem starts_eq_zero {s : ScanState} (hs : s ≠ .created) {row : List (Option ScanState)}
    (h : (some s :: row).IsChain LegalChange) : starts (some s :: row) = 0 := by
  induction row generalizing s with
  | nil => rfl
  | cons b row ih =>
      rw [List.isChain_cons_cons] at h
      rcases h.1 with rfl | hnone | ⟨src, dst, hsrc, rfl, hedge⟩
      · simp [starts, ih hs h.2]
      · exact absurd hnone (by simp)
      · obtain rfl := Option.some.inj hsrc
        have hdst : dst ≠ .created := by
          rintro rfl
          simp [not_canTransition_created] at hedge
        have hqueued : dst ≠ .queued := by
          rintro rfl
          exact hs (eq_created_of_canTransition_queued hedge)
        simp [starts, ih hdst h.2, hqueued]

theorem starts_le_one {row : List (Option ScanState)} (h : row.IsChain LegalChange) :
    starts row ≤ 1 := by
  induction row with
  | nil => simp [starts]
  | cons a row ih =>
      cases row with
      | nil => simp [starts]
      | cons b row =>
          rw [List.isChain_cons_cons] at h
          unfold starts
          split_ifs with hstart
          · rw [hstart.2] at h ⊢
            rw [starts_eq_zero (by decide) h.2]
          · simpa using ih h.2

theorem movesLegally_of_chain {row : List (Option ScanState)} (h : row.IsChain LegalChange) :
    MovesLegally row where
  edges := h
  final := by
    rintro s hs before after rfl
    exact eq_of_chain_of_terminal hs (List.isChain_append.mp h).2.1
  once := starts_le_one h

/-! ## Runs without stale copies -/

/-- A call that passes the check on its copy passes it on the row as well. -/
def Call.Current (i : String) (s : Shared C σ) : Call C → Prop
  | .set c dst _ => (s.copies c).id = i → canTransition (s.copies c).state dst = true →
      ∀ stored, s.platform.db.storedState i = some stored → stored = (s.copies c).state
  | .load _ => True

/-- Every call of the run is current when it is made. -/
def AllCurrent (clock : σ → Time × σ) (i : String) : List (Call C) → Shared C σ → Prop
  | [], _ => True
  | call :: calls, s => call.Current i s ∧ AllCurrent clock i calls (perform clock s call)

variable {i : String} {s : Shared C σ} {call : Call C}

theorem perform_set_of_ok {c : C} (h : setState clock (s.copies c) dst reason s.platform = (.ok scan, p)) :
    perform clock s (.set c dst reason) = ⟨p, Function.update s.copies c scan⟩ := by
  simp only [perform, h]

theorem perform_set_of_error {c : C} {e : PyError}
    (h : setState clock (s.copies c) dst reason s.platform = (.error e, p)) :
    perform clock s (.set c dst reason) = ⟨p, s.copies⟩ := by
  simp only [perform, h]

theorem platform_perform_load (c : C) : (perform clock s (.load c)).platform = s.platform := by
  cases hget : s.platform.db.getScan (s.copies c).id <;> simp only [perform, hget]

/-- One call of a caller whose copy is current moves the row along an edge. -/
theorem legalChange_perform (hcurrent : call.Current i s) :
    LegalChange (s.platform.db.storedState i)
      ((perform clock s call).platform.db.storedState i) := by
  cases call with
  | load c =>
      rw [platform_perform_load]
      exact Or.inl rfl
  | set c dst reason =>
      rcases setState_cases clock (s.copies c) dst reason s.platform with
        ⟨-, hrun⟩ | ⟨-, -, hrun⟩ | ⟨-, hedge, scan', entry, w, hid, hstate, hrun⟩
      · rw [perform_set_of_ok hrun]
        exact Or.inl rfl
      · rw [perform_set_of_error hrun]
        exact Or.inl rfl
      · rw [perform_set_of_ok hrun]
        change LegalChange _ (((s.platform.db.upsertScan scan').record entry).storedState i)
        rw [Database.storedState_record]
        by_cases hi : i = scan'.id
        · rw [hi, Database.storedState_upsertScan_self, hstate, ← hi]
          cases hstored : s.platform.db.storedState i with
          | none => exact Or.inr (Or.inl rfl)
          | some stored =>
              have hcopy := hcurrent (hid.symm.trans hi.symm) hedge stored hstored
              exact Or.inr (Or.inr ⟨stored, dst, rfl, rfl, hcopy ▸ hedge⟩)
        · rw [Database.storedState_upsertScan_of_ne hi]
          exact Or.inl rfl

/-- While no caller acts on a stale copy, the row only moves along edges. -/
theorem movesLegally_of_allCurrent (calls : List (Call C)) (s : Shared C σ)
    (hcurrent : AllCurrent clock i calls s) : MovesLegally (rowStates clock i calls s) := by
  apply movesLegally_of_chain
  induction calls generalizing s with
  | nil => exact List.isChain_singleton _
  | cons call calls ih =>
      have hrest := ih (perform clock s call) hcurrent.2
      have hstep : LegalChange (s.platform.db.storedState i)
          ((perform clock s call).platform.db.storedState i) := legalChange_perform hcurrent.1
      cases calls with
      | nil => exact List.isChain_pair.mpr hstep
      | cons call' calls => exact List.isChain_cons_cons.mpr ⟨hstep, hrest⟩

/-! ## Two callers with a copy of the new scan -/

def demoScan : Scan where
  id := "s"
  tenantId := "t"
  targetId := "g"
  createdBy := "u"
  createdAt := 0

def demoShared : Shared Bool Unit :=
  ⟨⟨(⟨[], [], [], [], []⟩ : Database).upsertScan demoScan, ()⟩, fun _ ↦ demoScan⟩

def demoClock : Unit → Time × Unit := fun _ ↦ (0, ())

/-- The calls that a run makes in the absence of exceptions. -/
def runCalls (c : Bool) : List (Call Bool) :=
  [.set c .queued none, .set c .planning none, .set c .running none, .set c .correlating none,
    .set c .validating none, .set c .reporting none, .set c .completed (some "0 findings")]

theorem movesLegally_oneRun : MovesLegally (rowStates demoClock "s" (runCalls false) demoShared) := by
  apply movesLegally_of_allCurrent
  simp only [runCalls, AllCurrent, Call.Current, and_true]
  decide +kernel

/-- A second run on a stale copy puts a completed scan back into the queue. -/
theorem not_movesLegally_staleCopy :
    ¬ MovesLegally (rowStates demoClock "s" (runCalls false ++ [.set true .queued none])
      demoShared) := by
  intro h
  have hrow : rowStates demoClock "s" (runCalls false ++ [.set true .queued none]) demoShared =
      [some .created, some .queued, some .planning, some .running, some .correlating,
        some .validating, some .reporting] ++ some .completed :: [some .queued] := by
    decide +kernel
  have hfinal := h.final .completed (by decide) _ _ hrow (some .queued) List.mem_cons_self
  exact absurd hfinal (by decide)

end Vantage.Scan
