import Vantage.Scan.Lifecycle

/-!
# The record of a scan

One caller holds the scan and asks for states in any order. What the row, the
audit log and the two timestamps say is determined by the states that were
taken.
-/

namespace Vantage.Scan

open Persistence

variable {σ : Type}

/-! ## One request -/

/-- What becomes of the fields of the scan when it enters a state. -/
structure Entered (scan scan' : Scan) (dst : ScanState) : Prop where
  id : scan'.id = scan.id
  tenantId : scan'.tenantId = scan.tenantId
  createdBy : scan'.createdBy = scan.createdBy
  state : scan'.state = dst
  started : dst = .running → scan.startedAt = none → ∃ now, scan'.startedAt = some now
  kept : dst ≠ .running ∨ scan.startedAt ≠ none → scan'.startedAt = scan.startedAt
  finished : dst ∈ terminalStates → ∃ now, scan'.finishedAt = some now
  unfinished : dst ∉ terminalStates → scan'.finishedAt = scan.finishedAt

theorem updatedScan_entered (clock : σ → Time × σ) (scan : Scan) (dst : ScanState)
    (reason : Option String) (p : Platform σ) :
    ∃ scan' w, updatedScan clock scan dst reason p = (.ok scan', { p with world := w }) ∧
      Entered scan scan' dst := by
  unfold updatedScan
  by_cases hrunning : dst = .running ∧ scan.startedAt = none
  · obtain ⟨rfl, hstart⟩ := hrunning
    simp only [hstart, and_self, if_true]
    have hterminal : ScanState.running ∉ terminalStates := by decide
    exact ⟨_, _, rfl, rfl, rfl, rfl, rfl, fun _ _ ↦ ⟨_, rfl⟩, fun h ↦ (by simp [hstart] at h),
      fun h ↦ absurd h hterminal, fun _ ↦ rfl⟩
  · simp only [hrunning, if_false]
    have hstarted : dst = .running → scan.startedAt = none → ∃ now, scan.startedAt = some now :=
      fun hdst hnone ↦ absurd ⟨hdst, hnone⟩ hrunning
    by_cases hterminal : dst ∈ terminalStates
    · simp only [hterminal, if_true]
      exact ⟨_, _, rfl, rfl, rfl, rfl, rfl, hstarted, fun _ ↦ rfl, fun _ ↦ ⟨_, rfl⟩,
        fun h ↦ absurd hterminal h⟩
    · simp only [hterminal, if_false]
      exact ⟨_, p.world, rfl, rfl, rfl, rfl, rfl, hstarted, fun _ ↦ rfl,
        fun h ↦ absurd h hterminal, fun _ ↦ rfl⟩

/-- The entry that a change of state leaves in the audit log, at any time. -/
structure Recorded (scan : Scan) (request : ScanState × Option String) (entry : AuditRow) :
    Prop where
  tenantId : entry.tenantId = scan.tenantId
  actor : entry.actor = scan.createdBy
  action : entry.action = "scan.state"
  resource : entry.resource = scan.id
  detail : entry.detail = request.1.value ++ ":" ++ request.2.getD ""

/-- The row and the entry are written together. -/
structure Changed (scan scan' : Scan) (request : ScanState × Option String) (db db' : Database) :
    Prop where
  edge : canTransition scan.state request.1 = true
  entered : Entered scan scan' request.1
  written : ∃ entry, db' = (db.upsertScan scan').record entry ∧ Recorded scan request entry

/-- A request is idle, is refused without effect, or changes the state. -/
theorem setState_outcome (clock : σ → Time × σ) (scan : Scan) (dst : ScanState)
    (reason : Option String) (p : Platform σ) :
    (scan.state = dst ∧ setState clock scan dst reason p = (.ok scan, p)) ∨
      (scan.state ≠ dst ∧ canTransition scan.state dst = false ∧
        setState clock scan dst reason p = (.error .illegalTransition, p)) ∨
      (scan.state ≠ dst ∧ ∃ scan' p', setState clock scan dst reason p = (.ok scan', p') ∧
        Changed scan scan' (dst, reason) p.db p'.db) := by
  unfold setState
  split_ifs with hsame hillegal
  · exact Or.inl ⟨hsame, rfl⟩
  · exact Or.inr (Or.inl ⟨hsame, hillegal, rfl⟩)
  · obtain ⟨scan', w, hupdated, hentered⟩ := updatedScan_entered clock scan dst reason p
    refine Or.inr (Or.inr ⟨hsame, scan', ⟨(p.db.upsertScan scan').record
      (auditEntry scan' dst reason (clock w).1), (clock w).2⟩, ?_, ?_⟩)
    · exact (Effect.bind_of_ok hupdated _).trans rfl
    · exact ⟨by simpa using hillegal, hentered, _, rfl, hentered.tenantId, hentered.createdBy, rfl,
        hentered.id, rfl⟩

/-! ## A run of requests -/

/-- The scan as its holder sees it, and the platform. -/
structure Held (σ : Type) where
  scan : Scan
  platform : Platform σ

namespace Held

/-- A request that raises leaves the holder with the scan it had. -/
def ask (clock : σ → Time × σ) (h : Held σ) (request : ScanState × Option String) : Held σ :=
  match setState clock h.scan request.1 request.2 h.platform with
  | (.ok scan, p) => ⟨scan, p⟩
  | (.error _, p) => ⟨h.scan, p⟩

def run (clock : σ → Time × σ) (h : Held σ) (requests : List (ScanState × Option String)) :
    Held σ :=
  requests.foldl (ask clock) h

/-- The requests of a run that changed the state. -/
def taken (clock : σ → Time × σ) (h : Held σ) :
    List (ScanState × Option String) → List (ScanState × Option String)
  | [] => []
  | request :: requests =>
      (if (h.ask clock request).scan.state = h.scan.state then [] else [request]) ++
        taken clock (h.ask clock request) requests

variable {clock : σ → Time × σ} {h : Held σ}

/-- A request leaves everything as it was, or changes the state. -/
theorem ask_cases (clock : σ → Time × σ) (h : Held σ) (request : ScanState × Option String) :
    h.ask clock request = h ∨
      (h.scan.state ≠ request.1 ∧
        Changed h.scan (h.ask clock request).scan request h.platform.db
          (h.ask clock request).platform.db) := by
  rcases setState_outcome clock h.scan request.1 request.2 h.platform with
    ⟨-, hrun⟩ | ⟨-, -, hrun⟩ | ⟨hne, scan', p', hrun, hchanged⟩
  · exact Or.inl (by rw [ask, hrun])
  · exact Or.inl (by rw [ask, hrun])
  · have hask : h.ask clock request = ⟨scan', p'⟩ := by rw [ask, hrun]
    rw [hask]
    exact Or.inr ⟨hne, hchanged⟩

theorem run_append (requests more : List (ScanState × Option String)) :
    h.run clock (requests ++ more) = (h.run clock requests).run clock more := List.foldl_append

theorem taken_of_idle {request : ScanState × Option String}
    {requests : List (ScanState × Option String)} (hidle : h.ask clock request = h) :
    h.taken clock (request :: requests) = h.taken clock requests := by
  rw [taken, hidle, if_pos rfl, List.nil_append]

theorem taken_of_changed {request : ScanState × Option String}
    {requests : List (ScanState × Option String)} (hne : h.scan.state ≠ request.1)
    (hstate : (h.ask clock request).scan.state = request.1) :
    h.taken clock (request :: requests) =
      request :: (h.ask clock request).taken clock requests := by
  rw [taken, hstate, if_neg (Ne.symm hne), List.singleton_append]

/-- What every change of state keeps holds at the end of the run. -/
theorem run_invariant {I : Held σ → Prop}
    (hstep : ∀ h request, h.scan.state ≠ request.1 →
      Changed h.scan (h.ask clock request).scan request h.platform.db
        (h.ask clock request).platform.db → I h → I (h.ask clock request))
    (requests : List (ScanState × Option String)) (h : Held σ) (hI : I h) :
    I (h.run clock requests) := by
  induction requests generalizing h with
  | nil => exact hI
  | cons request requests ih =>
      apply ih
      rcases ask_cases clock h request with hidle | ⟨hne, hchanged⟩
      · rw [hidle]
        exact hI
      · exact hstep h request hne hchanged hI

/-! ## The audit log -/

theorem ids_run (requests : List (ScanState × Option String)) (h : Held σ) :
    (h.run clock requests).scan.id = h.scan.id ∧
      (h.run clock requests).scan.tenantId = h.scan.tenantId ∧
      (h.run clock requests).scan.createdBy = h.scan.createdBy := by
  refine run_invariant (I := fun h' ↦ h'.scan.id = h.scan.id ∧ h'.scan.tenantId = h.scan.tenantId ∧
    h'.scan.createdBy = h.scan.createdBy) ?_ requests h ⟨rfl, rfl, rfl⟩
  rintro h' request - hchanged ⟨hid, htenant, hcreator⟩
  exact ⟨hchanged.entered.id.trans hid, hchanged.entered.tenantId.trans htenant,
    hchanged.entered.createdBy.trans hcreator⟩

theorem audit_run (requests : List (ScanState × Option String)) (h : Held σ) :
    ∃ entries, (h.run clock requests).platform.db.audit = h.platform.db.audit ++ entries ∧
      List.Forall₂ (Recorded h.scan) (h.taken clock requests) entries := by
  induction requests generalizing h with
  | nil => exact ⟨[], (List.append_nil _).symm, .nil⟩
  | cons request requests ih =>
      obtain ⟨entries, haudit, hall⟩ := ih (h.ask clock request)
      rcases ask_cases clock h request with hidle | ⟨hne, hchanged⟩
      · rw [taken_of_idle hidle]
        rw [hidle] at haudit hall
        exact ⟨entries, by rwa [run, List.foldl_cons, hidle], hall⟩
      · obtain ⟨entry, hdb, hrecorded⟩ := hchanged.written
        have hentered := hchanged.entered
        rw [taken_of_changed hne hentered.state]
        refine ⟨entry :: entries, ?_, .cons hrecorded (hall.imp fun request' entry' h' ↦ ?_)⟩
        · rw [run, List.foldl_cons]
          rw [run, hdb] at haudit
          rw [haudit, Database.audit_record, Database.audit_upsertScan, List.append_assoc,
            List.singleton_append]
        · exact ⟨h'.tenantId.trans hentered.tenantId, h'.actor.trans hentered.createdBy, h'.action,
            h'.resource.trans hentered.id, h'.detail⟩

theorem path_run (clock : σ → Time × σ) (requests : List (ScanState × Option String)) (h : Held σ) :
    (h.scan.state :: (h.taken clock requests).map Prod.fst).IsChain
        (fun src dst ↦ canTransition src dst = true) ∧
      (h.scan.state :: (h.taken clock requests).map Prod.fst).getLast? =
        some (h.run clock requests).scan.state := by
  induction requests generalizing h with
  | nil => exact ⟨List.isChain_singleton _, rfl⟩
  | cons request requests ih =>
      obtain ⟨hchain, hlast⟩ := ih (h.ask clock request)
      rcases ask_cases clock h request with hidle | ⟨hne, hchanged⟩
      · rw [taken_of_idle hidle, run, List.foldl_cons, hidle]
        rw [hidle] at hchain hlast
        exact ⟨hchain, hlast⟩
      · rw [taken_of_changed hne hchanged.entered.state]
        rw [hchanged.entered.state] at hchain hlast
        exact ⟨List.isChain_cons_cons.mpr ⟨hchanged.edge, hchain⟩, hlast⟩

/-! ## Timestamps -/

theorem notMem_terminalStates_of_edge {src dst : ScanState} (h : canTransition src dst = true) :
    src ∉ terminalStates := by
  intro hsrc
  rw [canTransition, transitions_of_terminal src hsrc] at h
  exact absurd h (by simp)

/-- The end is recorded exactly in the terminal states. -/
def EndRecorded (h : Held σ) : Prop := h.scan.finishedAt.isSome ↔ h.scan.state ∈ terminalStates

theorem endRecorded_run (requests : List (ScanState × Option String)) {h : Held σ}
    (hend : EndRecorded h) : EndRecorded (h.run clock requests) := by
  refine run_invariant (I := EndRecorded) ?_ requests h hend
  intro h' request _ hchanged hend'
  have hentered := hchanged.entered
  unfold EndRecorded
  rw [hentered.state]
  by_cases hterminal : request.1 ∈ terminalStates
  · obtain ⟨now, hnow⟩ := hentered.finished hterminal
    simp [hnow, hterminal]
  · have hsrc := notMem_terminalStates_of_edge hchanged.edge
    rw [hentered.unfinished hterminal]
    simp only [hterminal, iff_false]
    exact fun hsome ↦ hsrc (hend'.mp hsome)

theorem run_of_terminal (requests : List (ScanState × Option String)) {h : Held σ}
    (hterminal : h.scan.state ∈ terminalStates) : h.run clock requests = h := by
  refine run_invariant (I := fun h' ↦ h' = h) ?_ requests h rfl
  rintro h' request - hchanged rfl
  exact absurd hterminal (notMem_terminalStates_of_edge hchanged.edge)

theorem startedAt_run (requests : List (ScanState × Option String)) {h : Held σ} {now : Time}
    (hstarted : h.scan.startedAt = some now) :
    (h.run clock requests).scan.startedAt = some now := by
  refine run_invariant (I := fun h' ↦ h'.scan.startedAt = some now) ?_ requests h hstarted
  intro h' request _ hchanged hnow
  rw [hchanged.entered.kept (Or.inr (by simp [hnow])), hnow]

theorem started_run (requests : List (ScanState × Option String)) (h : Held σ) :
    (h.run clock requests).scan.startedAt.isSome ↔
      h.scan.startedAt.isSome ∨ .running ∈ (h.taken clock requests).map Prod.fst := by
  induction requests generalizing h with
  | nil => simp [run, taken]
  | cons request requests ih =>
      have hrest := ih (h.ask clock request)
      rcases ask_cases clock h request with hidle | ⟨hne, hchanged⟩
      · rw [taken_of_idle hidle, run, List.foldl_cons, hidle]
        rw [hidle] at hrest
        exact hrest
      · rw [taken_of_changed hne hchanged.entered.state, run, List.foldl_cons]
        refine hrest.trans ?_
        rw [List.map_cons, List.mem_cons, ← or_assoc]
        apply or_congr_left
        by_cases hkept : request.1 ≠ .running ∨ h.scan.startedAt ≠ none
        · rw [hchanged.entered.kept hkept]
          rcases hkept with hrunning | hsome
          · simp [Ne.symm hrunning]
          · simp [Option.isSome_iff_ne_none, hsome]
        · push Not at hkept
          obtain ⟨now, hnow⟩ := hchanged.entered.started hkept.1 hkept.2
          simp [hnow, hkept.1]

/-- The states that a scan cannot be in before it has run. -/
def pastStart : List ScanState :=
  [.running, .paused, .correlating, .validating, .reporting, .completed]

theorem pastStart_of_edge {src dst : ScanState} (h : canTransition src dst = true)
    (hdst : dst ∈ pastStart) : dst = .running ∨ src ∈ pastStart := by
  revert h hdst
  cases src <;> cases dst <;> decide

theorem started_of_pastStart (clock : σ → Time × σ) (requests : List (ScanState × Option String))
    {h : Held σ}
    (hstart : h.scan.state ∈ pastStart → h.scan.startedAt.isSome) :
    (h.run clock requests).scan.state ∈ pastStart →
      (h.run clock requests).scan.startedAt.isSome := by
  refine run_invariant (I := fun h' ↦ h'.scan.state ∈ pastStart → h'.scan.startedAt.isSome) ?_
    requests h hstart
  intro h' request _ hchanged hstart' hpast
  rw [hchanged.entered.state] at hpast
  by_cases hkept : request.1 ≠ .running ∨ h'.scan.startedAt ≠ none
  · rw [hchanged.entered.kept hkept]
    rcases hkept with hrunning | hsome
    · exact hstart' ((pastStart_of_edge hchanged.edge hpast).resolve_left hrunning)
    · exact Option.isSome_iff_ne_none.mpr hsome
  · push Not at hkept
    obtain ⟨now, hnow⟩ := hchanged.entered.started hkept.1 hkept.2
    simp [hnow]

/-! ## The row -/

/-- Once the state has changed, the row is that of the scan. -/
theorem row_run (requests : List (ScanState × Option String)) {h : Held σ}
    (htaken : h.taken clock requests ≠ []) :
    ∃ row, (h.run clock requests).platform.db.getScanRow h.scan.id = some row ∧
      Database.Mirrors row (h.run clock requests).scan := by
  induction requests generalizing h with
  | nil => exact absurd rfl htaken
  | cons request requests ih =>
      rcases ask_cases clock h request with hidle | ⟨hne, hchanged⟩
      · rw [taken_of_idle hidle] at htaken
        rw [run, List.foldl_cons, hidle]
        exact ih htaken
      · rw [← hchanged.entered.id]
        refine run_invariant (I := fun h' ↦ ∃ row, h'.platform.db.getScanRow
          (h.ask clock request).scan.id = some row ∧ Database.Mirrors row h'.scan ∧
            h'.scan.id = (h.ask clock request).scan.id) ?_ requests (h.ask clock request) ?_ |>.imp
          fun row hrow ↦ ⟨hrow.1, hrow.2.1⟩
        · rintro h' request' - hchanged' ⟨-, -, -, hid⟩
          obtain ⟨entry, hdb, -⟩ := hchanged'.written
          have hid' := hchanged'.entered.id.trans hid
          rw [hdb, Database.getScanRow_record, ← hid']
          obtain ⟨row, hrow, hmirrors⟩ :=
            Database.exists_row_upsertScan h'.platform.db (h'.ask clock request').scan
          exact ⟨row, hrow, hmirrors, rfl⟩
        · obtain ⟨entry, hdb, -⟩ := hchanged.written
          rw [hdb, Database.getScanRow_record]
          obtain ⟨row, hrow, hmirrors⟩ :=
            Database.exists_row_upsertScan h.platform.db (h.ask clock request).scan
          exact ⟨row, hrow, hmirrors, rfl⟩

/-! ## The law -/

/-- What the record says after a run of requests. -/
structure Consistent (clock : σ → Time × σ) (h : Held σ)
    (requests : List (ScanState × Option String)) : Prop where
  /-- A request that raises changes nothing. -/
  raised : ∀ (request : ScanState × Option String) e p',
    setState clock (h.run clock requests).scan request.1 request.2
      (h.run clock requests).platform = (.error e, p') →
      e = .illegalTransition ∧ p' = (h.run clock requests).platform
  /-- The row and one entry are written in one transaction. -/
  together : ∀ request : ScanState × Option String,
    ((h.run clock requests).ask clock request).scan.state ≠ (h.run clock requests).scan.state →
    ∃ entry,
      ((h.run clock requests).ask clock request).platform.db =
        ((h.run clock requests).platform.db.upsertScan
          ((h.run clock requests).ask clock request).scan).record entry
  /-- The new entries are those of the changes, in their order. -/
  audit : ∃ entries, (h.run clock requests).platform.db.audit = h.platform.db.audit ++ entries ∧
    List.Forall₂ (Recorded h.scan) (h.taken clock requests) entries
  /-- The changes are a path from the first state to the last. -/
  path : (h.scan.state :: (h.taken clock requests).map Prod.fst).IsChain
    (fun src dst ↦ canTransition src dst = true)
  last : (h.scan.state :: (h.taken clock requests).map Prod.fst).getLast? =
    some (h.run clock requests).scan.state
  row : h.taken clock requests ≠ [] → ∃ row,
    (h.run clock requests).platform.db.getScanRow h.scan.id = some row ∧
      Database.Mirrors row (h.run clock requests).scan
  finished : (h.run clock requests).scan.finishedAt.isSome ↔
    (h.run clock requests).scan.state ∈ terminalStates
  final : (h.run clock requests).scan.state ∈ terminalStates → ∀ more,
    h.run clock (requests ++ more) = h.run clock requests
  started : (h.run clock requests).scan.startedAt.isSome ↔
    .running ∈ (h.taken clock requests).map Prod.fst
  kept : ∀ now, (h.run clock requests).scan.startedAt = some now → ∀ more,
    (h.run clock (requests ++ more)).scan.startedAt = some now
  completed : (h.run clock requests).scan.state = .completed →
    (h.run clock requests).scan.startedAt.isSome ∧ (h.run clock requests).scan.finishedAt.isSome

end Held

end Vantage.Scan
