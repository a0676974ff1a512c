import Vantage.Lib.Spelling
import Vantage.Scan.Completion

/-!
# The audit trail

The entries that changes of state leave in the audit log tell the story of each
scan. Whoever changes states, and however runs end, the stored state of a scan
is the last one that its trail tells of.
-/

namespace Vantage.Scan

open Text Engines Findings Persistence Scope Ai

/-! ## Reading the log -/

def allStates : List ScanState :=
  [.created, .queued, .planning, .running, .paused, .correlating, .validating, .reporting,
    .completed, .cancelling, .cancelled, .failed]

def stateNamed (name : String) : Option ScanState := allStates.find? fun s ↦ s.value = name

/-- The state that an entry tells of, which is named before the first colon. -/
def stateOf (entry : AuditRow) : Option ScanState :=
  stateNamed (String.ofList (cut ':' entry.detail.toList).1)

/-- The states that the entries of a scan tell of, the oldest first. -/
def trail (db : Database) (i : String) : List (Option ScanState) :=
  (db.audit.filter fun entry ↦ entry.resource = i ∧ entry.action = "scan.state").map stateOf

theorem stateNamed_value : ∀ s : ScanState, stateNamed s.value = some s := by
  intro s
  cases s <;> decide

theorem colon_notMem_value : ∀ s : ScanState, ':' ∉ s.value.toList := by
  intro s
  cases s <;> decide

/-- Whatever the reason says, an entry is read back as the state that was entered. -/
theorem stateOf_auditEntry (scan : Scan) (dst : ScanState) (reason : Option String) (now : Time) :
    stateOf (auditEntry scan dst reason now) = some dst := by
  have hdetail : (auditEntry scan dst reason now).detail.toList =
      dst.value.toList ++ ':' :: (reason.getD "").toList := by
    simp [auditEntry]
  rw [stateOf, hdetail, cut_append_left (colon_notMem_value dst), cut_cons_self, List.append_nil,
    String.ofList_toList]
  exact stateNamed_value dst

theorem trail_record (db : Database) (scan : Scan) (dst : ScanState) (reason : Option String)
    (now : Time) (i : String) :
    trail (db.record (auditEntry scan dst reason now)) i =
      trail db i ++ if scan.id = i then [some dst] else [] := by
  unfold trail
  rw [Database.audit_record, List.filter_append, List.map_append]
  congr 1
  by_cases hi : scan.id = i
  · simp [auditEntry, hi, ← stateOf_auditEntry scan dst reason now]
  · simp [auditEntry, hi]

theorem trail_upsertScan (db : Database) (scan : Scan) (i : String) :
    trail (db.upsertScan scan) i = trail db i := by
  rw [trail, Database.audit_upsertScan, trail]

/-! ## What a change tells -/

variable {σ : Type} {clock : σ → Time × σ} {scan scan' : Scan} {dst : ScanState}
  {reason : Option String} {p p' p'' : Platform σ} {i : String} {states states' : List ScanState}

/-- From one platform to the other, the log tells of the states, and the last of them is stored. -/
structure Told (i : String) (states : List ScanState) (p p' : Platform σ) : Prop where
  kept : p.db.audit <+: p'.db.audit
  told : trail p'.db i = trail p.db i ++ states.map some
  stored : p'.db.storedState i = states.getLast?.or (p.db.storedState i)

theorem Told.refl (i : String) (p : Platform σ) : Told i [] p p :=
  ⟨List.prefix_refl _, by simp, by simp⟩

theorem Told.trans (h : Told i states p p') (h' : Told i states' p' p'') :
    Told i (states ++ states') p p'' where
  kept := h.kept.trans h'.kept
  told := by rw [h'.told, h.told, List.map_append, List.append_assoc]
  stored := by
    rw [h'.stored, h.stored, List.getLast?_append, Option.or_assoc]

theorem writing_told (i : String) : Effect.Writing (Told (σ := σ) i) :=
  ⟨Told.refl i, Told.trans⟩

/-- The table of scans and the log are as before. -/
theorem told_of_same (hscans : p'.db.scans = p.db.scans) (haudit : p'.db.audit = p.db.audit) :
    Told i [] p p' where
  kept := by rw [haudit]
  told := by simp [trail, haudit]
  stored := by simp [Database.storedState, Database.getScanRow, hscans]

theorem told_of_write (hstate : scan.state = dst) (now : Time) (w : σ) :
    Told i (if scan.id = i then [dst] else []) p
      ⟨(p.db.upsertScan scan).record (auditEntry scan dst reason now), w⟩ where
  kept := by
    rw [Database.audit_record, Database.audit_upsertScan]
    exact List.prefix_append _ _
  told := by
    rw [trail_record, trail_upsertScan]
    split_ifs <;> rfl
  stored := by
    rw [Database.storedState_record]
    split_ifs with hi
    · rw [← hi, Database.storedState_upsertScan_self, hstate]
      rfl
    · rw [Database.storedState_upsertScan_of_ne (Ne.symm hi)]
      rfl

/-- The states that a request tells the log of. -/
def tells (i : String) (scan : Scan) (dst : ScanState) : List ScanState :=
  if scan.id = i ∧ canTransition scan.state dst = true then [dst] else []

theorem ne_of_canTransition {src : ScanState} (h : canTransition src dst = true) : src ≠ dst := by
  rintro rfl
  rw [not_canTransition_self] at h
  exact Bool.false_ne_true h

/-- A request that is idle or illegal tells nothing, and all others tell of the state. -/
theorem told_setState (clock : σ → Time × σ) (scan : Scan) (dst : ScanState)
    (reason : Option String) (i : String) (p : Platform σ) :
    Told i (tells i scan dst) p (setState clock scan dst reason p).2 := by
  unfold setState
  split_ifs with hsame hillegal
  · have hidle : tells i scan dst = [] := if_neg fun h ↦ ne_of_canTransition h.2 hsame
    rw [hidle]
    exact Told.refl i p
  · have hrefused : tells i scan dst = [] := by simp [tells, hillegal]
    rw [hrefused]
    exact Told.refl i p
  · obtain ⟨scan', w, hupdated, hid, -, -, hstate⟩ := updatedScan_spec clock scan dst reason p
    have htells : tells i scan dst = if scan'.id = i then [dst] else [] := by
      simp [tells, hillegal, hid]
    rw [Effect.bind_of_ok hupdated, htells]
    exact told_of_write hstate (clock w).1 (clock w).2

/-! ## Several callers -/

variable {C : Type} [DecidableEq C]

def performAll (clock : σ → Time × σ) (s : Shared C σ) (calls : List (Call C)) : Shared C σ :=
  calls.foldl (perform clock) s

/-- The changes of a scan that the callers bring about, each by the copy that it holds. -/
def changes (clock : σ → Time × σ) (i : String) : List (Call C) → Shared C σ → List ScanState
  | [], _ => []
  | call :: calls, s =>
      (match call with
        | .set c dst _ => tells i (s.copies c) dst
        | .load _ => []) ++ changes clock i calls (perform clock s call)

theorem told_perform_set (clock : σ → Time × σ) (s : Shared C σ) (c : C) (dst : ScanState)
    (reason : Option String) (i : String) :
    Told i (tells i (s.copies c) dst) s.platform
      (perform clock s (.set c dst reason)).platform := by
  have htold := told_setState clock (s.copies c) dst reason i s.platform
  rcases hrun : setState clock (s.copies c) dst reason s.platform with ⟨result, p⟩
  rw [hrun] at htold
  cases result with
  | ok scan => rwa [perform_set_of_ok hrun]
  | error e => rwa [perform_set_of_error hrun]

/-- The log tells of all changes in the order in which they were made, and the last is stored. -/
theorem told_performAll (clock : σ → Time × σ) (calls : List (Call C)) (s : Shared C σ)
    (i : String) :
    Told i (changes clock i calls s) s.platform (performAll clock s calls).platform := by
  induction calls generalizing s with
  | nil => exact Told.refl i s.platform
  | cons call calls ih =>
      have hrest := ih (perform clock s call)
      cases call with
      | set c dst reason => exact (told_perform_set clock s c dst reason i).trans hrest
      | load c =>
          rw [platform_perform_load] at hrest
          exact hrest

example : trail (performAll demoClock demoShared (runCalls false)).platform.db "s" =
    [some .queued, some .planning, some .running, some .correlating, some .validating,
      some .reporting, some .completed] := by decide +kernel

/-! ## A run -/

/-- The states of an authorized scan after the queue, or those of one that is refused. -/
def afterQueue (authorized : Bool) : List ScanState :=
  .planning ::
    if authorized then [.running, .correlating, .validating, .reporting, .completed] else [.failed]

/-- A run queues a new scan, takes over a scan that is queued, and starts from no other state. -/
def route (state : ScanState) (authorized : Bool) : List ScanState :=
  match state with
  | .created => .queued :: afterQueue authorized
  | .queued => afterQueue authorized
  | _ => []

/-- The log tells of the states for the scan, and of nothing for the others. -/
def Tells (scanId : String) (states : List ScanState) (p p' : Platform σ) : Prop :=
  ∀ i, Told i (if scanId = i then states else []) p p'

theorem writing_tells (scanId : String) : Effect.Writing (Tells (σ := σ) scanId) where
  nil p i := by
    rw [ite_self]
    exact Told.refl i p
  append h h' i := by
    have hboth := (h i).trans (h' i)
    split_ifs at hboth ⊢
    · exact hboth
    · exact hboth

instance : IsPreorder (Platform σ) (Tells i []) := (writing_tells i).isPreorder

theorem tells_of_same (hscans : p'.db.scans = p.db.scans) (haudit : p'.db.audit = p.db.audit) :
    Tells i [] p p' := by
  intro j
  rw [ite_self]
  exact told_of_same hscans haudit

/-- The scan, while it is in a state. -/
structure At (scanId : String) (state : ScanState) (scan : Scan) : Prop where
  id : scan.id = scanId
  state : scan.state = state

section Stages

variable {o : Orchestrator σ} {target : Target} {src : ScanState}

theorem tells_setState (o : Orchestrator σ) (hscan : At i src scan)
    (hedge : canTransition src dst = true) (reason : Option String) :
    Effect.Spells (Tells i) [dst] (o.setState scan dst reason) (At i dst) := by
  rw [← hscan.state] at hedge
  intro p
  obtain ⟨scan', p', hrun, hmoved⟩ := setState_moves o scan dst hedge reason p
  refine ⟨[dst], fun j ↦ ?_, List.prefix_refl _, fun a ha ↦ ⟨rfl, ?_⟩⟩
  · have htold := told_setState o.env.clock scan dst reason j p
    have htells : tells j scan dst = if i = j then [dst] else [] := by
      simp [tells, hedge, hscan.id]
    rwa [htells] at htold
  · rw [hrun] at ha
    obtain rfl := Except.ok.inj ha
    exact ⟨hmoved.id.trans hscan.id, hmoved.state⟩

theorem moves_outside {α : Type} (m : Effect PyError σ α) :
    Effect.Moves (Tells (σ := σ) i []) (outside m) := fun _ ↦ tells_of_same rfl rfl

/-- A unit of work that is not about scans. -/
theorem moves_unitOfWork {body : Database → Except PyError Database}
    (h : ∀ db db', body db = .ok db' → db'.scans = db.scans ∧ db'.audit = db.audit) :
    Effect.Moves (Tells (σ := σ) i []) (unitOfWork body) := by
  intro p
  cases hbody : body p.db with
  | error e =>
      rw [unitOfWork_of_error hbody]
      exact tells_of_same rfl rfl
  | ok db =>
      rw [unitOfWork_of_ok hbody]
      obtain ⟨hscans, haudit⟩ := h p.db db hbody
      exact tells_of_same hscans haudit

theorem moves_storeObservations (observations : List Observation) :
    Effect.Moves (Tells (σ := σ) i []) (storeObservations observations) := by
  unfold storeObservations
  split_ifs
  · exact fun _ ↦ tells_of_same rfl rfl
  · refine moves_unitOfWork fun db db' hadd ↦ ?_
    unfold Database.addObservations at hadd
    simp only at hadd
    split_ifs at hadd
    obtain rfl := Except.ok.inj hadd
    exact ⟨rfl, rfl⟩

theorem audit_upsertFinding {db db' : Database} {f : UnifiedFinding}
    (h : db.upsertFinding f = .ok db') : db'.audit = db.audit := by
  unfold Database.upsertFinding at h
  split_ifs at h
  · obtain rfl := Except.ok.inj h
    rfl
  · obtain rfl := Except.ok.inj h
    rfl

theorem same_of_upsertFindings {findings : List UnifiedFinding} {db db' : Database}
    (h : findings.foldlM (fun db f ↦ Database.upsertFinding db f) db = .ok db') :
    db'.scans = db.scans ∧ db'.audit = db.audit := by
  induction findings generalizing db with
  | nil =>
      obtain rfl := Except.ok.inj h
      exact ⟨rfl, rfl⟩
  | cons f findings ih =>
      rw [List.foldlM_cons] at h
      obtain ⟨db₁, hfirst, hrest⟩ := ExceptList.exists_of_bind_ok h
      obtain ⟨hscans, haudit⟩ := ih hrest
      exact ⟨hscans.trans (scans_upsertFinding hfirst), haudit.trans (audit_upsertFinding hfirst)⟩

theorem moves_mergeHistory (o : Orchestrator σ) (scan : Scan) (target : Target)
    (findings : List UnifiedFinding) :
    Effect.Moves (Tells (σ := σ) i []) (o.mergeHistory scan target findings) := by
  refine Effect.Moves.get.bind fun p ↦ ?_
  cases (p.db.listScans scan.tenantId (some .completed)).filter
      (fun s ↦ s.targetId = target.id ∧ s.id ≠ scan.id) with
  | nil => exact .pure _
  | cons last rest => exact moves_outside _

/-- A new scan enters the queue, and a queued one is there. -/
def queueing : ScanState → List ScanState
  | .created => [.queued]
  | _ => []

theorem tells_queue (o : Orchestrator σ) (h : Startable scan.state) :
    Effect.Spells (Tells scan.id) (queueing scan.state) (o.setState scan .queued none)
      (At scan.id .queued) := by
  rcases h with h | h
  · rw [h]
    exact tells_setState o ⟨rfl, h⟩ (by decide) none
  · rw [h]
    intro p
    rw [setState_same h]
    refine ⟨[], tells_of_same rfl rfl, List.prefix_refl _, fun a ha ↦ ⟨rfl, ?_⟩⟩
    obtain rfl := Except.ok.inj ha
    exact ⟨rfl, h⟩

theorem tells_refuse (o : Orchestrator σ) (h : Startable scan.state) :
    Effect.Spells (Tells scan.id) (queueing scan.state ++ afterQueue false) (o.refuse scan)
      fun _ ↦ True := by
  refine (tells_queue o h).bind (writing_tells _) fun scan₁ h₁ ↦ ?_
  refine (tells_setState o h₁ (by decide) none).bind (writing_tells _) fun scan₂ h₂ ↦ ?_
  refine (tells_setState o h₂ (by decide) _).last (writing_tells _) fun scan₃ _ ↦ ?_
  exact .pure (writing_tells _) trivial

theorem tells_planStage (o : Orchestrator σ) (target : Target) (h : Startable scan.state) :
    Effect.Spells (Tells scan.id) (queueing scan.state ++ [.planning, .running])
      (o.planStage scan target) fun r ↦ At scan.id .running r.1 := by
  refine (tells_queue o h).bind (writing_tells _) fun scan₁ h₁ ↦ ?_
  refine (tells_setState o h₁ (by decide) none).bind (writing_tells _) fun scan₂ h₂ ↦ ?_
  refine (tells_setState o h₂ (by decide) none).last (writing_tells _) fun scan₃ h₃ ↦ ?_
  exact .after (writing_tells _) (moves_outside _) fun now ↦ .pure (writing_tells _) h₃

theorem tells_engineStage (o : Orchestrator σ) (target : Target) (h : At i .running scan)
    (scope : ScopeEngine) (plan : ScanPlan) :
    Effect.Spells (Tells i) [.correlating] (o.engineStage scan target scope plan)
      fun r ↦ At i .correlating r.1 := by
  refine .after (writing_tells i) (moves_outside _) fun progress ↦ ?_
  refine .after (writing_tells i) (moves_storeObservations _) fun _ ↦ ?_
  refine (tells_setState o h (by decide) none).last (writing_tells i) fun scan' h' ↦ ?_
  exact .pure (writing_tells i) h'

theorem tells_correlationStage (o : Orchestrator σ) (target : Target) (h : At i .correlating scan)
    (observations : List Observation) :
    Effect.Spells (Tells i) [.validating, .reporting]
      (o.correlationStage scan target observations) fun r ↦ At i .reporting r.1 := by
  refine .after (writing_tells i) (moves_outside _) fun validated ↦ ?_
  refine .after (writing_tells i) (moves_outside _) fun findings ↦ ?_
  refine .after (writing_tells i) (moves_mergeHistory o scan target findings) fun merged ↦ ?_
  refine (tells_setState o h (by decide) none).bind (writing_tells i) fun scan₁ h₁ ↦ ?_
  refine (tells_setState o h₁ (by decide) none).last (writing_tells i) fun scan₂ h₂ ↦ ?_
  exact .pure (writing_tells i) h₂

theorem tells_reportStage (o : Orchestrator σ) (h : At i .reporting scan)
    (findings : List UnifiedFinding) :
    Effect.Spells (Tells i) [.completed] (o.reportStage scan findings) fun _ ↦ True := by
  refine .after (writing_tells i) (moves_unitOfWork fun _ _ ↦ same_of_upsertFindings) fun _ ↦ ?_
  refine .after (writing_tells i) (moves_outside _) fun ai ↦ ?_
  refine (tells_setState o h (by decide) _).last (writing_tells i) fun scan' _ ↦ ?_
  exact .pure (writing_tells i) trivial

theorem tells_conduct (o : Orchestrator σ) (target : Target) (h : Startable scan.state) :
    Effect.Spells (Tells scan.id) (queueing scan.state ++ afterQueue true)
      (o.conduct scan target) fun _ ↦ True := by
  have hsplit : queueing scan.state ++ afterQueue true =
      (queueing scan.state ++ [.planning, .running]) ++
        ([.correlating] ++ ([.validating, .reporting] ++ ([.completed] ++ []))) := by
    simp [afterQueue]
  rw [hsplit]
  refine (tells_planStage o target h).bind (writing_tells _) fun r₁ h₁ ↦ ?_
  refine (tells_engineStage o target h₁ _ _).bind (writing_tells _) fun r₂ h₂ ↦ ?_
  refine (tells_correlationStage o target h₂ _).bind (writing_tells _) fun r₃ h₃ ↦ ?_
  refine (tells_reportStage o h₃ _).bind (writing_tells _) fun r₄ _ ↦ ?_
  exact .pure (writing_tells _) trivial

end Stages

theorem route_of_startable (h : Startable scan.state) (authorized : Bool) :
    route scan.state authorized = queueing scan.state ++ afterQueue authorized := by
  rcases h with h | h <;> rw [h] <;> rfl

theorem route_of_not_startable (h : ¬ Startable scan.state) (authorized : Bool) :
    route scan.state authorized = [] := by
  unfold Startable at h
  cases hstate : scan.state <;> simp_all [route]

end Vantage.Scan
