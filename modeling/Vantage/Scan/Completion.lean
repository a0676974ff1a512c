import Vantage.Scan.EngineLoop

/-!
# How a scan ends

An exception that escapes from a run leaves the row of the scan in the state
that was written last.
-/

namespace Vantage.Scan

open Scope Engines Findings Persistence Ai

variable {σ : Type} {o : Orchestrator σ} {scan scan' : Scan} {target : Target} {p p' : Platform σ}
  {dst : ScanState} {reason : Option String} {observations : List Observation}
  {findings : List UnifiedFinding}

/-- The persisted state of the scan is terminal. -/
def Ended (p : Platform σ) (i : String) : Prop :=
  ∃ state ∈ terminalStates, p.db.storedState i = some state

/-! ## Changes of state -/

/-- The scan and its row are in the given state. -/
structure Moved (scan scan' : Scan) (dst : ScanState) (p' : Platform σ) : Prop where
  id : scan'.id = scan.id
  state : scan'.state = dst
  stored : p'.db.storedState scan.id = some dst

theorem not_canTransition_self (state : ScanState) : canTransition state state = false := by
  cases state <;> decide

theorem setState_moves (o : Orchestrator σ) (scan : Scan) (dst : ScanState)
    (hedge : canTransition scan.state dst = true) (reason : Option String) (p : Platform σ) :
    ∃ scan' p', o.setState scan dst reason p = (.ok scan', p') ∧ Moved scan scan' dst p' := by
  rcases setState_cases o.env.clock scan dst reason p with
    ⟨hsame, -⟩ | ⟨-, hno, -⟩ | ⟨-, -, scan', entry, w, hid, hstate, hrun⟩
  · rw [hsame, not_canTransition_self] at hedge
    exact absurd hedge (by simp)
  · rw [hno] at hedge
    exact absurd hedge (by simp)
  · refine ⟨scan', _, hrun, hid, hstate, ?_⟩
    rw [Database.storedState_record, ← hid, Database.storedState_upsertScan_self, hstate]

theorem setState_same (h : scan.state = dst) (reason : Option String) (p : Platform σ) :
    o.setState scan dst reason p = (.ok scan, p) := by
  rcases setState_cases o.env.clock scan dst reason p with ⟨-, hrun⟩ | ⟨hne, -⟩ | ⟨hne, -⟩
  · exact hrun
  · exact absurd h hne
  · exact absurd h hne

/-- A run can start from a new scan, and from one that is queued. -/
def Startable (state : ScanState) : Prop := state = .created ∨ state = .queued

theorem queue_spec (h : Startable scan.state) (p : Platform σ) :
    ∃ scan' p', o.setState scan .queued none p = (.ok scan', p') ∧ scan'.id = scan.id ∧
      scan'.state = .queued := by
  rcases h with h | h
  · obtain ⟨scan', p', hrun, hmoved⟩ := setState_moves o scan .queued
      (by rw [h]; decide) none p
    exact ⟨scan', p', hrun, hmoved.id, hmoved.state⟩
  · exact ⟨scan, p, setState_same h none p, rfl, h⟩

theorem queue_error (h : ¬ Startable scan.state) (p : Platform σ) :
    o.setState scan .queued none p = (.error .illegalTransition, p) := by
  rcases setState_cases o.env.clock scan .queued none p with
    ⟨hsame, -⟩ | ⟨-, -, hrun⟩ | ⟨-, hedge, -⟩
  · exact absurd (Or.inr hsame) h
  · exact hrun
  · exact absurd (Or.inl (eq_created_of_canTransition_queued hedge)) h

/-! ## Planning -/

theorem planStage_spec (o : Orchestrator σ) (target : Target) (h : Startable scan.state)
    (p : Platform σ) :
    ∃ scan' scope plan p', o.planStage scan target p = (.ok (scan', scope, plan), p') ∧
      Moved scan scan' .running p' := by
  obtain ⟨scan₁, p₁, hqueue, hid₁, hstate₁⟩ := queue_spec (o := o) h p
  obtain ⟨scan₂, p₂, hplan, hmoved₂⟩ := setState_moves o scan₁ .planning
    (by rw [hstate₁]; decide) none p₁
  obtain ⟨scan₃, p₃, hrun, hmoved₃⟩ := setState_moves o scan₂ .running
    (by rw [hmoved₂.state]; decide) none p₂
  have hid : scan₂.id = scan.id := hmoved₂.id.trans hid₁
  have hclock := outside_of_ok (p := p₃) (Effect.total_apply o.env.clock p₃.world)
  refine ⟨scan₃, _, _, _, (Effect.bind_of_ok hqueue _).trans ((Effect.bind_of_ok hplan _).trans
    ((Effect.bind_of_ok hrun _).trans ((Effect.bind_of_ok hclock _).trans rfl))),
    hmoved₃.id.trans hid, hmoved₃.state, ?_⟩
  rw [← hid]
  exact hmoved₃.stored

theorem planStage_error (h : ¬ Startable scan.state) (p : Platform σ) :
    o.planStage scan target p = (.error .illegalTransition, p) :=
  Effect.bind_of_error (queue_error h p) _

theorem refuse_spec (h : Startable scan.state) (p : Platform σ) :
    ∃ report p', o.refuse scan p = (.ok report, p') ∧ Ended p' scan.id := by
  obtain ⟨scan₁, p₁, hqueue, hid₁, hstate₁⟩ := queue_spec (o := o) h p
  obtain ⟨scan₂, p₂, hplan, hmoved₂⟩ := setState_moves o scan₁ .planning
    (by rw [hstate₁]; decide) none p₁
  obtain ⟨scan₃, p₃, hfail, hmoved₃⟩ := setState_moves o scan₂ .failed
    (by rw [hmoved₂.state]; decide) (some "target not authorized") p₂
  have hid : scan₂.id = scan.id := hmoved₂.id.trans hid₁
  refine ⟨_, p₃, (Effect.bind_of_ok hqueue _).trans ((Effect.bind_of_ok hplan _).trans
    ((Effect.bind_of_ok hfail _).trans rfl)), .failed, by decide, ?_⟩
  rw [← hid]
  exact hmoved₃.stored

theorem refuse_error (h : ¬ Startable scan.state) (p : Platform σ) :
    o.refuse scan p = (.error .illegalTransition, p) :=
  Effect.bind_of_error (queue_error h p) _

/-! ## Running the engines -/

/-- No identifier of the observations is stored already or occurs twice. -/
def Storable (db : Database) (observations : List Observation) : Prop :=
  observations = [] ∨
    (db.observations.map ObservationRow.id ++ observations.map Observation.id).Nodup

theorem addObservations_of_nodup {db : Database}
    (h : (db.observations.map ObservationRow.id ++ observations.map Observation.id).Nodup) :
    db.addObservations observations =
      .ok { db with observations := db.observations ++ observations.map Database.newObservationRow } := by
  refine if_pos ?_
  rw [List.map_append, List.map_map]
  exact h

theorem addObservations_of_not_nodup {db : Database}
    (h : ¬ (db.observations.map ObservationRow.id ++ observations.map Observation.id).Nodup) :
    db.addObservations observations = .error .integrityError := by
  refine if_neg ?_
  rw [List.map_append, List.map_map]
  exact h

theorem storeObservations_cons (obs : Observation) (observations : List Observation) :
    (storeObservations (obs :: observations) : Effect PyError (Platform σ) Unit) =
      unitOfWork fun db ↦ db.addObservations (obs :: observations) := rfl

theorem storeObservations_of_storable (h : Storable p.db observations) :
    ∃ p', storeObservations observations p = (.ok (), p') ∧ p'.db.scans = p.db.scans ∧
      p'.world = p.world := by
  cases observations with
  | nil => exact ⟨p, rfl, rfl, rfl⟩
  | cons obs observations =>
      have hnodup := h.resolve_left (List.cons_ne_nil _ _)
      rw [storeObservations_cons]
      exact ⟨_, unitOfWork_of_ok (addObservations_of_nodup hnodup), rfl, rfl⟩

theorem storeObservations_of_not_storable (h : ¬ Storable p.db observations) :
    storeObservations observations p = (.error .integrityError, p) := by
  cases observations with
  | nil => exact absurd (Or.inl rfl) h
  | cons obs observations =>
      rw [storeObservations_cons]
      apply unitOfWork_of_error
      exact addObservations_of_not_nodup fun hnodup ↦ h (Or.inr hnodup)

variable {scope : ScopeEngine} {plan : ScanPlan}

/-- The unguarded calls of the engine stage return: those of the loop, and the
storing of what the engines have reported. -/
def EnginesReturn (o : Orchestrator σ) (scan : Scan) (target : Target) (scope : ScopeEngine)
    (plan : ScanPlan) (p : Platform σ) : Prop :=
  ∃ runs progress w, Loops o scan target scope plan.tasks {} p.world runs progress w ∧
    Storable p.db progress.observations

theorem engineStage_spec (hstate : scan.state = .running)
    (h : EnginesReturn o scan target scope plan p) :
    ∃ scan' progress p', o.engineStage scan target scope plan p = (.ok (scan', progress), p') ∧
      Moved scan scan' .correlating p' := by
  obtain ⟨runs, progress, w, hloops, hstorable⟩ := h
  have hloop := outside_of_ok (engineLoop_ok_iff.mpr ⟨runs, hloops⟩)
  obtain ⟨p₂, hstore, -, -⟩ := storeObservations_of_storable (p := { p with world := w }) hstorable
  obtain ⟨scan', p', hset, hmoved⟩ := setState_moves o scan .correlating
    (by rw [hstate]; decide) none p₂
  exact ⟨scan', progress, p', (Effect.bind_of_ok hloop _).trans ((Effect.bind_of_ok hstore _).trans
    ((Effect.bind_of_ok hset _).trans rfl)), hmoved⟩

theorem engineStage_error (h : ¬ EnginesReturn o scan target scope plan p) :
    ∃ e p', o.engineStage scan target scope plan p = (.error e, p') ∧ p'.db = p.db := by
  rcases hloop : o.engineLoop scan target scope plan.tasks p.world with ⟨result, w⟩
  cases result with
  | error e => exact ⟨e, _, Effect.bind_of_error (outside_of_error hloop) _, rfl⟩
  | ok progress =>
      obtain ⟨runs, hloops⟩ := engineLoop_ok_iff.mp hloop
      have hstore := storeObservations_of_not_storable (p := { p with world := w })
        fun hstorable ↦ h ⟨runs, progress, w, hloops, hstorable⟩
      exact ⟨_, _, (Effect.bind_of_ok (outside_of_ok hloop) _).trans
        (Effect.bind_of_error hstore _), rfl⟩

/-! ## Correlation -/

/-- The call of the prober factory returns, if it is made. -/
def ProberReturns (o : Orchestrator σ) (target : Target) (w : σ) : Prop :=
  ∀ factory, o.proberFactory = some factory → o.validateFindings = true →
    ∃ prober w', factory target w = (.ok prober, w')

theorem validationStage_spec {w : σ} (h : ProberReturns o target w)
    (observations : List Observation) :
    ∃ observations' w', o.validationStage target observations w = (.ok observations', w') := by
  unfold Orchestrator.validationStage
  cases hfactory : o.proberFactory with
  | none => exact ⟨observations, w, rfl⟩
  | some factory =>
      by_cases hvalidate : o.validateFindings = true
      · obtain ⟨prober, w₁, hprober⟩ := h factory hfactory hvalidate
        obtain ⟨observations', w₂, hall, -⟩ := validateAll_spec o.validation
          (Effect.total o.env.clock) prober observations w₁
        simp only [hvalidate, if_true]
        exact ⟨observations', w₂, (Effect.bind_of_ok hprober _).trans hall⟩
      · simp only [hvalidate]
        exact ⟨observations, w, rfl⟩

theorem validationStage_error {w : σ} (h : ¬ ProberReturns o target w)
    (observations : List Observation) :
    ∃ e w', o.validationStage target observations w = (.error e, w') := by
  unfold ProberReturns at h
  push Not at h
  obtain ⟨factory, hfactory, hvalidate, hraises⟩ := h
  unfold Orchestrator.validationStage
  simp only [hfactory, hvalidate, if_true]
  rcases hrun : factory target w with ⟨result, w'⟩
  cases result with
  | error e => exact ⟨e, w', Effect.bind_of_error hrun _⟩
  | ok prober => exact absurd hrun (hraises prober w')

theorem mergeAcrossScans_spec (previous current : List UnifiedFinding) (w : σ) :
    ∃ findings w', o.mergeAcrossScans previous current w = (.ok findings, w') := by
  induction current generalizing w with
  | nil => exact ⟨[], w, rfl⟩
  | cons f current ih =>
      cases hold : previous.reverse.find? (·.fingerprint = f.fingerprint) with
      | none =>
          obtain ⟨rest, w', hrest⟩ := ih w
          refine ⟨[f] ++ rest, w', Effect.collect_cons_of_ok ?_ hrest⟩
          rw [hold]
          rfl
      | some old =>
          obtain ⟨rest, w', hrest⟩ := ih (o.env.clock w).2
          refine ⟨[{ f with firstSeen := old.firstSeen, lastSeen := (o.env.clock w).1 }] ++ rest, w',
            Effect.collect_cons_of_ok ?_ hrest⟩
          rw [hold]
          rfl

theorem mergeHistory_spec (scan : Scan) (target : Target) (findings : List UnifiedFinding)
    (p : Platform σ) :
    ∃ findings' w, o.mergeHistory scan target findings p =
      (.ok findings', { p with world := w }) := by
  unfold Orchestrator.mergeHistory
  cases hprevious : (p.db.listScans scan.tenantId (some .completed)).filter
      (fun s ↦ s.targetId = target.id ∧ s.id ≠ scan.id) with
  | nil =>
      refine ⟨findings, p.world, (Effect.bind_of_ok (Effect.get_apply p) _).trans ?_⟩
      simp only [hprevious]
      rfl
  | cons last rest =>
      obtain ⟨findings', w, hmerge⟩ :=
        mergeAcrossScans_spec (o := o) (p.db.findingsForScan last.id) findings p.world
      refine ⟨findings', w, (Effect.bind_of_ok (Effect.get_apply p) _).trans ?_⟩
      simp only [hprevious]
      exact outside_of_ok hmerge

theorem correlationStage_spec (hstate : scan.state = .correlating)
    (h : ProberReturns o target p.world) (observations : List Observation) :
    ∃ scan' findings p', o.correlationStage scan target observations p =
      (.ok (scan', findings), p') ∧ Moved scan scan' .reporting p' := by
  obtain ⟨observations', w₁, hvalidation⟩ := validationStage_spec h observations
  have hcorrelate : o.correlate scan target observations' w₁ = (.ok _, (o.env.newIds w₁).2) := rfl
  obtain ⟨findings, w₂, hhistory⟩ := mergeHistory_spec (o := o) scan target _
    { p with world := (o.env.newIds w₁).2 }
  obtain ⟨scan₁, p₁, hset₁, hmoved₁⟩ := setState_moves o scan .validating
    (by rw [hstate]; decide) none { p with world := w₂ }
  obtain ⟨scan₂, p₂, hset₂, hmoved₂⟩ := setState_moves o scan₁ .reporting
    (by rw [hmoved₁.state]; decide) none p₁
  refine ⟨scan₂, _, p₂, (Effect.bind_of_ok (outside_of_ok hvalidation) _).trans
    ((Effect.bind_of_ok (outside_of_ok hcorrelate) _).trans
    ((Effect.bind_of_ok hhistory _).trans ((Effect.bind_of_ok hset₁ _).trans
    ((Effect.bind_of_ok hset₂ _).trans rfl)))), hmoved₂.id.trans hmoved₁.id, hmoved₂.state, ?_⟩
  rw [← hmoved₁.id]
  exact hmoved₂.stored

theorem correlationStage_error (scan : Scan) (h : ¬ ProberReturns o target p.world)
    (observations : List Observation) :
    ∃ e p', o.correlationStage scan target observations p = (.error e, p') ∧ p'.db = p.db := by
  obtain ⟨e, w, hvalidation⟩ := validationStage_error h observations
  exact ⟨e, _, Effect.bind_of_error (outside_of_error hvalidation) _, rfl⟩

/-! ## Reporting -/

/-- The unguarded calls of the assessment return: the provider says whether it
is available, and what it replies can be read. -/
inductive AssessmentReturns (loads : String → Except PyError Json) (provider : LLMProvider σ)
    (findings : List UnifiedFinding) (w : σ) : Prop
  | empty (hfindings : findings = [])
  | unavailable {w' : σ} (havailable : provider.available w = (.ok false, w'))
  | silent {e : PyError} {w₁ w' : σ} (havailable : provider.available w = (.ok true, w₁))
      (hcomplete : provider.complete findings w₁ = (.error e, w'))
  | replied {resp : LLMResponse} {data : Json} {ai : AiAssessment} {w₁ w' : σ}
      (havailable : provider.available w = (.ok true, w₁))
      (hcomplete : provider.complete findings w₁ = (.ok resp, w'))
      (hjson : resp.json loads = .ok data)
      (hread : assessmentOf
        { provider := provider.name
          model := provider.modelId
          modelLicense := provider.modelLicense }
        (findings.map UnifiedFinding.id) data = .ok ai)

variable {loads : String → Except PyError Json} {provider : LLMProvider σ} {w : σ}

theorem assess_spec (h : AssessmentReturns loads provider findings w) :
    ∃ ai w', assess loads provider findings w = (.ok ai, w') := by
  cases findings with
  | nil => exact ⟨_, w, rfl⟩
  | cons f findings =>
      cases h with
      | empty hfindings => exact absurd hfindings (List.cons_ne_nil _ _)
      | @unavailable w' havailable => exact ⟨_, w', (Effect.bind_of_ok havailable _).trans rfl⟩
      | @silent e w₁ w' havailable hcomplete =>
          have hreply := Effect.recover_of_error
            (Effect.bind_of_error hcomplete fun resp ↦ pure (some resp)) fun _ ↦ pure none
          exact ⟨_, w', (Effect.bind_of_ok havailable _).trans
            ((Effect.bind_of_ok hreply _).trans rfl)⟩
      | @replied resp data ai w₁ w' havailable hcomplete hjson hread =>
          have hreply := Effect.recover_of_ok
            ((Effect.bind_of_ok hcomplete fun resp ↦ pure (some resp)).trans rfl) fun _ ↦ pure none
          have hdata : (Effect.ofExcept (resp.json loads) : Effect PyError σ Json) w' =
              (.ok data, w') := congrArg (·, w') hjson
          exact ⟨ai, w', (Effect.bind_of_ok havailable _).trans ((Effect.bind_of_ok hreply _).trans
            ((Effect.bind_of_ok hdata _).trans (congrArg (·, w') hread)))⟩

theorem assessmentReturns_of_ok {ai : AiAssessment} {w' : σ}
    (h : assess loads provider findings w = (.ok ai, w')) :
    AssessmentReturns loads provider findings w := by
  cases findings with
  | nil => exact .empty rfl
  | cons f findings =>
      obtain ⟨available, w₁, havailable, h⟩ := Effect.exists_of_bind_ok h
      cases available with
      | false => exact .unavailable havailable
      | true =>
          rcases hcomplete : provider.complete (f :: findings) w₁ with ⟨result, w₂⟩
          cases result with
          | error e => exact .silent havailable hcomplete
          | ok resp =>
              have hreply := Effect.recover_of_ok
                ((Effect.bind_of_ok hcomplete fun resp ↦ pure (some resp)).trans rfl)
                fun _ ↦ pure none
              have hrest := (Effect.bind_of_ok hreply _).symm.trans h
              obtain ⟨data, w₃, hjson, hread⟩ := Effect.exists_of_bind_ok hrest
              exact .replied havailable hcomplete (congrArg Prod.fst hjson)
                (congrArg Prod.fst hread)

theorem assess_error (h : ¬ AssessmentReturns loads provider findings w) :
    ∃ e w', assess loads provider findings w = (.error e, w') := by
  rcases hrun : assess loads provider findings w with ⟨result, w'⟩
  cases result with
  | error e => exact ⟨e, w', rfl⟩
  | ok ai => exact absurd (assessmentReturns_of_ok hrun) h

/-- The findings can be written one after the other. -/
def Writable (db : Database) (findings : List UnifiedFinding) : Prop :=
  ∃ db', findings.foldlM (fun db f ↦ db.upsertFinding f) db = .ok db'

theorem reportStage_spec (hstate : scan.state = .reporting) (hwritable : Writable p.db findings)
    (hassess : AssessmentReturns o.env.loads o.analyst findings p.world) :
    ∃ result p', o.reportStage scan findings p = (.ok result, p') ∧
      p'.db.storedState scan.id = some .completed := by
  obtain ⟨db, hwrite⟩ := hwritable
  obtain ⟨ai, w, hassess⟩ := assess_spec hassess
  have hunit : unitOfWork (fun db ↦ findings.foldlM (fun db f ↦ db.upsertFinding f) db) p =
      (.ok (), { p with db := db }) := unitOfWork_of_ok hwrite
  have hai := outside_of_ok (p := { p with db := db }) hassess
  obtain ⟨scan', p', hset, hmoved⟩ := setState_moves o scan .completed
    (by rw [hstate]; decide)
    (some (toString (if ai.enabled then prioritizedOrder findings ai else findings).length ++
      " findings")) ⟨db, w⟩
  exact ⟨_, p', (Effect.bind_of_ok hunit _).trans ((Effect.bind_of_ok hai _).trans
    ((Effect.bind_of_ok hset _).trans rfl)), hmoved.stored⟩

theorem scans_upsertFinding {db db' : Database} {f : UnifiedFinding}
    (h : db.upsertFinding f = .ok db') : db'.scans = db.scans := by
  unfold Database.upsertFinding at h
  split_ifs at h
  · obtain rfl := Except.ok.inj h
    rfl
  · obtain rfl := Except.ok.inj h
    rfl

theorem reportStage_error (scan : Scan)
    (h : ¬ (Writable p.db findings ∧ AssessmentReturns o.env.loads o.analyst findings p.world)) :
    ∃ e p', o.reportStage scan findings p = (.error e, p') ∧ p'.db.scans = p.db.scans := by
  cases hwrite : findings.foldlM (fun db f ↦ Database.upsertFinding db f) p.db with
  | error e =>
      have hunit : unitOfWork (fun db ↦ findings.foldlM (fun db f ↦ db.upsertFinding f) db) p =
          (.error e, p) := unitOfWork_of_error hwrite
      exact ⟨e, p, Effect.bind_of_error hunit _, rfl⟩
  | ok db =>
      have hunit : unitOfWork (fun db ↦ findings.foldlM (fun db f ↦ db.upsertFinding f) db) p =
          (.ok (), { p with db := db }) := unitOfWork_of_ok hwrite
      have hscans : db.scans = p.db.scans :=
        ExceptList.foldlM_invariant (P := fun db' : Database ↦ db'.scans = p.db.scans)
          (fun f _ db db' hdb hupsert ↦ (scans_upsertFinding hupsert).trans hdb) rfl hwrite
      obtain ⟨e, w, hassess⟩ := assess_error fun hassess ↦ h ⟨⟨db, hwrite⟩, hassess⟩
      have hai := outside_of_error (p := { p with db := db }) hassess
      exact ⟨e, _, (Effect.bind_of_ok hunit _).trans (Effect.bind_of_error hai _), hscans⟩

/-! ## The run -/

/-- The unguarded calls that the run comes to return, each in the state in which it is made. -/
structure Undisturbed (o : Orchestrator σ) (scan : Scan) (target : Target) (p : Platform σ) :
    Prop where
  engines : ∀ scan₁ scope plan p₁, o.planStage scan target p = (.ok (scan₁, scope, plan), p₁) →
    EnginesReturn o scan₁ target scope plan p₁
  prober : ∀ scan₁ scope plan p₁ scan₂ progress p₂,
    o.planStage scan target p = (.ok (scan₁, scope, plan), p₁) →
    o.engineStage scan₁ target scope plan p₁ = (.ok (scan₂, progress), p₂) →
      ProberReturns o target p₂.world
  report : ∀ scan₁ scope plan p₁ scan₂ progress p₂ scan₃ findings p₃,
    o.planStage scan target p = (.ok (scan₁, scope, plan), p₁) →
    o.engineStage scan₁ target scope plan p₁ = (.ok (scan₂, progress), p₂) →
    o.correlationStage scan₂ target progress.observations p₂ = (.ok (scan₃, findings), p₃) →
      Writable p₃.db findings ∧ AssessmentReturns o.env.loads o.analyst findings p₃.world

theorem not_ended_of_stored {state : ScanState} {i : String}
    (hstored : p.db.storedState i = some state) (hstate : state ∉ terminalStates) :
    ¬ Ended p i := by
  rintro ⟨state', hterminal, hstored'⟩
  obtain rfl := Option.some.inj (hstored'.symm.trans hstored)
  exact hstate hterminal

theorem storedState_of_scans {db db' : Database} (h : db'.scans = db.scans) (i : String) :
    db'.storedState i = db.storedState i := by
  rw [Database.storedState, Database.getScanRow, h]
  rfl

theorem conduct_error (h : ¬ Startable scan.state) (p : Platform σ) :
    o.conduct scan target p = (.error .illegalTransition, p) :=
  Effect.bind_of_error (planStage_error h p) _

theorem ended_congr {i : String} (h : p'.db = p.db) : Ended p' i ↔ Ended p i := by
  rw [Ended, Ended, h]

/-- An authorized run ends the scan exactly when nothing disturbs it. -/
theorem conduct_ended_iff (h : Startable scan.state) (p : Platform σ) :
    Ended (o.conduct scan target p).2 scan.id ↔ Undisturbed o scan target p := by
  obtain ⟨scan₁, scope, plan, p₁, hplan, hmoved₁⟩ := planStage_spec o target h p
  by_cases hengines : EnginesReturn o scan₁ target scope plan p₁
  · obtain ⟨scan₂, progress, p₂, hengine, hmoved₂⟩ := engineStage_spec hmoved₁.state hengines
    have hstored₂ : p₂.db.storedState scan.id = some .correlating := hmoved₁.id ▸ hmoved₂.stored
    by_cases hprober : ProberReturns o target p₂.world
    · obtain ⟨scan₃, findings, p₃, hcorrelation, hmoved₃⟩ :=
        correlationStage_spec hmoved₂.state hprober progress.observations
      have hid : scan₂.id = scan.id := hmoved₂.id.trans hmoved₁.id
      have hstored₃ : p₃.db.storedState scan.id = some .reporting := hid ▸ hmoved₃.stored
      by_cases hreport : Writable p₃.db findings ∧
          AssessmentReturns o.env.loads o.analyst findings p₃.world
      · obtain ⟨⟨scan₄, findings', ai⟩, p', hfinish, hstored⟩ :=
          reportStage_spec (o := o) hmoved₃.state hreport.1 hreport.2
        obtain ⟨report, hrun⟩ : ∃ report, o.conduct scan target p = (.ok report, p') :=
          ⟨_, (Effect.bind_of_ok hplan _).trans ((Effect.bind_of_ok hengine _).trans
            ((Effect.bind_of_ok hcorrelation _).trans ((Effect.bind_of_ok hfinish _).trans rfl)))⟩
        have hid₃ : scan₃.id = scan.id := hmoved₃.id.trans hid
        refine iff_of_true ⟨.completed, by decide, ?_⟩ ⟨?_, ?_, ?_⟩
        · rw [hrun, ← hid₃]
          exact hstored
        · intro scan₁' scope' plan' p₁' hplan'
          obtain ⟨⟨⟩, rfl⟩ := Effect.ok_unique hplan hplan'
          exact hengines
        · intro scan₁' scope' plan' p₁' scan₂' progress' p₂' hplan' hengine'
          obtain ⟨⟨⟩, rfl⟩ := Effect.ok_unique hplan hplan'
          obtain ⟨⟨⟩, rfl⟩ := Effect.ok_unique hengine hengine'
          exact hprober
        · intro scan₁' scope' plan' p₁' scan₂' progress' p₂' scan₃' findings' p₃' hplan' hengine'
            hcorrelation'
          obtain ⟨⟨⟩, rfl⟩ := Effect.ok_unique hplan hplan'
          obtain ⟨⟨⟩, rfl⟩ := Effect.ok_unique hengine hengine'
          obtain ⟨⟨⟩, rfl⟩ := Effect.ok_unique hcorrelation hcorrelation'
          exact hreport
      · obtain ⟨e, p', hfail, hscans⟩ := reportStage_error scan₃ hreport
        have hrun : o.conduct scan target p = (.error e, p') :=
          (Effect.bind_of_ok hplan _).trans ((Effect.bind_of_ok hengine _).trans
            ((Effect.bind_of_ok hcorrelation _).trans (Effect.bind_of_error hfail _)))
        refine iff_of_false ?_ fun hquiet ↦
          hreport (hquiet.report _ _ _ _ _ _ _ _ _ _ hplan hengine hcorrelation)
        rw [hrun]
        refine not_ended_of_stored ?_ (by decide : ScanState.reporting ∉ terminalStates)
        rw [storedState_of_scans hscans, hstored₃]
    · obtain ⟨e, p', hfail, hdb⟩ := correlationStage_error scan₂ hprober
        progress.observations
      have hrun : o.conduct scan target p = (.error e, p') :=
        (Effect.bind_of_ok hplan _).trans ((Effect.bind_of_ok hengine _).trans
          (Effect.bind_of_error hfail _))
      refine iff_of_false ?_ fun hquiet ↦
        hprober (hquiet.prober _ _ _ _ _ _ _ hplan hengine)
      rw [hrun, ended_congr hdb]
      exact not_ended_of_stored hstored₂ (by decide)
  · obtain ⟨e, p', hengine, hdb⟩ := engineStage_error hengines
    have hrun : o.conduct scan target p = (.error e, p') :=
      (Effect.bind_of_ok hplan _).trans (Effect.bind_of_error hengine _)
    refine iff_of_false ?_ fun hquiet ↦ hengines (hquiet.engines _ _ _ _ hplan)
    rw [hrun, ended_congr hdb]
    exact not_ended_of_stored hmoved₁.stored (by decide)

/-- A model replies with a rank that looks like a number and is none. -/
def demoReply : Json :=
  .obj [("findings", .arr [.obj [("id", .str "f"), ("priority_rank", .str "--1")]])]

def demoProvider : LLMProvider Unit where
  name := "ollama"
  modelId := "m"
  modelLicense := "Apache-2.0"
  available := pure true
  complete _ := pure ⟨"\x7b\"findings\": [\x7b\"id\": \"f\", \"priority_rank\": \"--1\"\x7d]\x7d", "m",
    "ollama"⟩

end Vantage.Scan
