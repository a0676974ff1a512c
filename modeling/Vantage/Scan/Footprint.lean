import Vantage.Lib.Moves
import Vantage.Persistence.Columns
import Vantage.Scan.Completion

/-!
# What a run touches

A run writes the row of its own scan and findings of its own scan, and time
does not go back in it. Up to the report it stores no finding and does not
complete the scan.
-/

namespace Vantage.Scan

open Engines Findings Persistence Scope Ai

variable {σ : Type} {time : σ → Time} {o : Orchestrator σ} {scan scan' scan'' : Scan}
  {target : Target} {p p' p'' : Platform σ} {dst : ScanState} {reason : Option String}

/-! ## The scan -/

/-- What no change of state touches. -/
structure SameScan (scan scan' : Scan) : Prop where
  id : scan'.id = scan.id
  tenantId : scan'.tenantId = scan.tenantId
  targetId : scan'.targetId = scan.targetId
  createdAt : scan'.createdAt = scan.createdAt

theorem SameScan.refl (scan : Scan) : SameScan scan scan := ⟨rfl, rfl, rfl, rfl⟩

/-- A clock that does not go back. -/
structure Clocked (time : σ → Time) (clock : σ → Time × σ) : Prop where
  reads : ∀ w, time w ≤ (clock w).1
  later : ∀ w, (clock w).1 ≤ time (clock w).2

theorem Clocked.rises {clock : σ → Time × σ} (h : Clocked time clock) (w : σ) :
    time w ≤ time (clock w).2 := (h.reads w).trans (h.later w)

theorem updatedScan_same {clock : σ → Time × σ} (hclock : Clocked time clock)
    (hsame : SameScan scan scan') (dst : ScanState) (reason : Option String) (p : Platform σ) :
    ∃ scan'' w, updatedScan clock scan' dst reason p = (.ok scan'', { p with world := w }) ∧
      SameScan scan scan'' ∧ scan''.state = dst ∧ time p.world ≤ time w := by
  unfold updatedScan
  by_cases hrunning : dst = .running ∧ scan'.startedAt = none
  · obtain ⟨rfl, hstart⟩ := hrunning
    simp only [hstart, and_self, if_true]
    exact ⟨_, _, rfl, ⟨hsame.id, hsame.tenantId, hsame.targetId, hsame.createdAt⟩, rfl,
      hclock.rises p.world⟩
  · simp only [hrunning, if_false]
    by_cases hterminal : dst ∈ terminalStates
    · simp only [hterminal, if_true]
      exact ⟨_, _, rfl, ⟨hsame.id, hsame.tenantId, hsame.targetId, hsame.createdAt⟩, rfl,
        hclock.rises p.world⟩
    · simp only [hterminal, if_false]
      exact ⟨_, p.world, rfl, ⟨hsame.id, hsame.tenantId, hsame.targetId, hsame.createdAt⟩, rfl,
        le_rfl⟩

/-- A change of state raises, does nothing, or writes the row of the scan. -/
theorem setState_writes (hclock : Clocked time o.env.clock) (hsame : SameScan scan scan')
    (dst : ScanState) (reason : Option String) (p : Platform σ) :
    o.setState scan' dst reason p = (.error .illegalTransition, p) ∨
      (scan'.state = dst ∧ o.setState scan' dst reason p = (.ok scan', p)) ∨
      ∃ scan'' entry w, o.setState scan' dst reason p =
          (.ok scan'', ⟨(p.db.upsertScan scan'').record entry, w⟩) ∧
        SameScan scan scan'' ∧ scan''.state = dst ∧ time p.world ≤ time w := by
  unfold Orchestrator.setState setState
  split_ifs with hstate hillegal
  · exact Or.inr (Or.inl ⟨hstate, rfl⟩)
  · exact Or.inl rfl
  · obtain ⟨scan'', w, hupdated, hsame'', hdst, hlater⟩ :=
      updatedScan_same hclock hsame dst reason p
    refine Or.inr (Or.inr ⟨scan'', auditEntry scan'' dst reason (o.env.clock w).1,
      (o.env.clock w).2, ?_, hsame'', hdst, hlater.trans (hclock.rises w)⟩)
    rw [Effect.bind_of_ok hupdated]
    rfl

theorem returns_setState (hclock : Clocked time o.env.clock) (hsame : SameScan scan scan')
    (dst : ScanState) (reason : Option String) :
    Effect.Returns (o.setState scan' dst reason) (SameScan scan) := by
  intro p scan'' p' hrun
  rcases setState_writes hclock hsame dst reason p with
    herror | ⟨-, hidle⟩ | ⟨written, entry, w, hwrite, hsame'', -, -⟩
  · exact absurd (congrArg Prod.fst (herror.symm.trans hrun)) (by simp)
  · obtain ⟨rfl, -⟩ := Effect.ok_unique hidle hrun
    exact hsame
  · obtain ⟨rfl, -⟩ := Effect.ok_unique hwrite hrun
    exact hsame''

/-! ## Rows -/

/-- The row is one of the scan. -/
structure RowOf (scan : Scan) (row : ScanRow) : Prop where
  id : row.id = scan.id
  tenantId : row.tenantId = scan.tenantId
  createdAt : row.createdAt = scan.createdAt
  payload_id : row.payload.id = scan.id
  payload_targetId : row.payload.targetId = scan.targetId

theorem mem_upsertScan_of_ne {db : Database} {row : ScanRow} (h : row.id ≠ scan.id) :
    row ∈ (db.upsertScan scan).scans ↔ row ∈ db.scans := by
  unfold Database.upsertScan
  split_ifs
  · constructor
    · intro hrow
      obtain ⟨row', hrow', rfl⟩ := List.mem_map.mp hrow
      split_ifs at h ⊢ with hid
      · exact absurd hid h
      · exact hrow'
    · exact fun hrow ↦ List.mem_map.mpr ⟨row, hrow, if_neg h⟩
  · have hnew : row ≠ Database.newScanRow scan := fun heq ↦ h (congrArg ScanRow.id heq)
    simp [hnew]

theorem rowOf_upsertScan {db : Database}
    (h : ∀ row ∈ db.scans, row.id = scan.id → RowOf scan row) (hsame : SameScan scan scan') :
    ∀ row ∈ (db.upsertScan scan').scans, row.id = scan.id → RowOf scan row := by
  rw [Database.scans_upsertScan]
  refine (Table.forall_mem_upsert_iff h fun _ ↦ ?_).mpr fun row hrow hfound hid ↦ ?_
  · exact ⟨hsame.id, hsame.tenantId, hsame.createdAt, hsame.id, hsame.targetId⟩
  · have hold := h row hrow hid
    exact ⟨hold.id, hold.tenantId, hold.createdAt, hsame.id, hsame.targetId⟩

/-! ## The footprint -/

/-- From one platform to the other, only rows of the scan have been written. -/
structure Touched (time : σ → Time) (scan : Scan) (p p' : Platform σ) : Prop where
  scans : ∀ row, row.id ≠ scan.id → (row ∈ p'.db.scans ↔ row ∈ p.db.scans)
  findings : ∀ row, row.scanId ≠ scan.id → (row ∈ p'.db.findings ↔ row ∈ p.db.findings)
  own : (∀ row ∈ p.db.scans, row.id = scan.id → RowOf scan row) →
    ∀ row ∈ p'.db.scans, row.id = scan.id → RowOf scan row
  later : time p.world ≤ time p'.world

instance : IsPreorder (Platform σ) (Touched time scan) where
  refl _ := ⟨fun _ _ ↦ Iff.rfl, fun _ _ ↦ Iff.rfl, fun h ↦ h, le_rfl⟩
  trans _ _ _ h h' :=
    ⟨fun row hrow ↦ (h'.scans row hrow).trans (h.scans row hrow),
      fun row hrow ↦ (h'.findings row hrow).trans (h.findings row hrow),
      fun hown ↦ h'.own (h.own hown), h.later.trans h'.later⟩

/-- No row says that the scan is completed. -/
def Incomplete (scan : Scan) (p : Platform σ) : Prop :=
  ∀ row ∈ p.db.scans, row.id = scan.id → row.state ≠ .completed

/-- Besides, no finding is stored and the scan is not completed. -/
structure Unreported (time : σ → Time) (scan : Scan) (p p' : Platform σ) : Prop extends
    Touched time scan p p' where
  unstored : p'.db.findings = p.db.findings
  incomplete : Incomplete scan p → Incomplete scan p'

instance : IsPreorder (Platform σ) (Unreported time scan) where
  refl p := ⟨refl_of (Touched time scan) p, rfl, fun h ↦ h⟩
  trans _ _ _ h h' :=
    ⟨trans_of (Touched time scan) h.toTouched h'.toTouched, h'.unstored.trans h.unstored,
      fun hopen ↦ h'.incomplete (h.incomplete hopen)⟩

/-- A computation outside of the database. -/
theorem unreported_of_world {w : σ} (h : time p.world ≤ time w) :
    Unreported time scan p { p with world := w } :=
  ⟨⟨fun _ _ ↦ Iff.rfl, fun _ _ ↦ Iff.rfl, fun hown ↦ hown, h⟩, rfl, fun hopen ↦ hopen⟩

theorem unreported_outside {α : Type} {m : Effect PyError σ α} (h : Effect.Rises time m) :
    Effect.Moves (Unreported time scan) (outside m) := fun p ↦ unreported_of_world (h p.world)

/-! ## Changes of state -/

theorem findings_of_write {db : Database} {entry : AuditRow} :
    ((db.upsertScan scan).record entry).findings = db.findings := by
  unfold Database.record Database.upsertScan
  split_ifs <;> rfl

/-- A write of the row of the scan. -/
theorem touched_of_write {entry : AuditRow} {w : σ} (hsame : SameScan scan scan')
    (hlater : time p.world ≤ time w) :
    Touched time scan p ⟨(p.db.upsertScan scan').record entry, w⟩ := by
  refine ⟨fun row hrow ↦ ?_, fun row _ ↦ ?_, fun hown ↦ rowOf_upsertScan hown hsame, hlater⟩
  · rw [← hsame.id] at hrow
    exact mem_upsertScan_of_ne hrow
  · rw [findings_of_write]

theorem moves_setState (hclock : Clocked time o.env.clock) (hsame : SameScan scan scan')
    (dst : ScanState) (reason : Option String) :
    Effect.Moves (Touched time scan) (o.setState scan' dst reason) := by
  intro p
  rcases setState_writes hclock hsame dst reason p with
    herror | ⟨-, hidle⟩ | ⟨scan'', entry, w, hwrite, hsame'', -, hlater⟩
  · rw [herror]
    exact refl_of (Touched time scan) p
  · rw [hidle]
    exact refl_of (Touched time scan) p
  · rw [hwrite]
    exact touched_of_write hsame'' hlater

theorem unreported_setState (hclock : Clocked time o.env.clock) (hsame : SameScan scan scan')
    (hdst : dst ≠ .completed) (reason : Option String) :
    Effect.Moves (Unreported time scan) (o.setState scan' dst reason) := by
  intro p
  have htouched := moves_setState hclock hsame dst reason p
  rcases setState_writes hclock hsame dst reason p with
    herror | ⟨-, hidle⟩ | ⟨scan'', entry, w, hwrite, hsame'', hstate, -⟩
  · rw [herror]
    exact refl_of (Unreported time scan) p
  · rw [hidle]
    exact refl_of (Unreported time scan) p
  · rw [hwrite] at htouched ⊢
    refine ⟨htouched, findings_of_write, fun hopen ↦ ?_⟩
    change ∀ row ∈ (p.db.upsertScan scan'').scans, row.id = scan.id → row.state ≠ .completed
    rw [Database.scans_upsertScan]
    have hentered : scan''.state ≠ .completed := hstate ▸ hdst
    exact (Table.forall_mem_upsert_iff hopen fun _ ↦ hentered).mpr fun _ _ _ _ ↦ hentered

/-! ## What the collaborators do with time -/

/-- No collaborator turns time back, and no engine reports an observation from the future. -/
structure Timely (time : σ → Time) (o : Orchestrator σ) (target : Target) : Prop where
  clock : Clocked time o.env.clock
  newIds : ∀ w, time w ≤ time (o.env.newIds w).2
  metadata : ∀ i x, o.registry.adapterFor i = some x → Effect.Rises time x.metadata
  healthCheck : ∀ i x, o.registry.adapterFor i = some x → Effect.Rises time x.healthCheck
  lifecycle : ∀ i x, o.registry.adapterFor i = some x → ∀ request,
    Effect.Rises time (x.lifecycle request)
  observed : ∀ i x, o.registry.adapterFor i = some x → ∀ request w observations w',
    x.lifecycle request w = (.ok observations, w') → ∀ obs ∈ observations,
      obs.observedAt ≤ time w'
  factory : ∀ factory, o.proberFactory = some factory → Effect.Rises time (factory target)
  validate : ∀ factory, o.proberFactory = some factory → ∀ w prober w',
    factory target w = (.ok prober, w') → ∀ strategy ∈ o.validation.strategies, ∀ obs,
      Effect.Rises time (strategy.validate obs prober)
  available : Effect.Rises time o.analyst.available
  complete : ∀ findings, Effect.Rises time (o.analyst.complete findings)

/-- The observations were made by now. -/
def Dated (time : σ → Time) (observations : List Observation) (w : σ) : Prop :=
  ∀ obs ∈ observations, obs.observedAt ≤ time w

theorem Dated.later {observations : List Observation} {w w' : σ} (h : Dated time observations w)
    (hlater : time w ≤ time w') : Dated time observations w' :=
  fun obs hobs ↦ (h obs hobs).trans hlater

namespace Timely

variable (h : Timely time o target)

include h

theorem rises_clock : Effect.Rises time (Effect.total o.env.clock : Effect PyError σ Time) :=
  .total h.clock.rises

theorem rises_newIds :
    Effect.Rises time (Effect.total o.env.newIds : Effect PyError σ (ℕ → String)) :=
  .total h.newIds

/-! ## The engine loop -/

variable {x : EngineAdapter σ} {i : String} {request : EngineRunRequest}

theorem rises_attempt (hx : o.registry.adapterFor i = some x) (request : EngineRunRequest) :
    Effect.Rises time (attempt x request) := by
  refine Effect.Moves.recover ?_ fun _ ↦ .pure _
  refine (h.healthCheck i x hx).bind fun health ↦ ?_
  split_ifs
  · exact .pure _
  · exact h.lifecycle i x hx request

theorem dated_attempt (hx : o.registry.adapterFor i = some x) {w w' : σ}
    {observations : List Observation}
    (hrun : attempt x request w = (.ok observations, w')) : Dated time observations w' := by
  rcases hguarded : (x.healthCheck >>= fun health ↦
      if health = .unavailable then pure [] else x.lifecycle request : Effect PyError σ _) w with
    ⟨result, w₁⟩
  cases result with
  | error e =>
      have hhandled := Effect.recover_of_error hguarded fun _ ↦
        (pure [] : Effect PyError σ (List Observation))
      obtain ⟨rfl, -⟩ := Effect.eq_of_pure (hhandled.symm.trans hrun)
      exact fun obs hobs ↦ absurd hobs List.not_mem_nil
  | ok reported =>
      have hreturned := Effect.recover_of_ok hguarded fun _ ↦
        (pure [] : Effect PyError σ (List Observation))
      obtain ⟨rfl, rfl⟩ := Effect.ok_unique hreturned hrun
      obtain ⟨health, w₂, -, hlifecycle⟩ := Effect.exists_of_bind_ok hguarded
      split_ifs at hlifecycle
      · obtain ⟨rfl, -⟩ := Effect.eq_of_pure hlifecycle
        exact fun obs hobs ↦ absurd hobs List.not_mem_nil
      · exact h.observed i x hx request w₂ reported w₁ hlifecycle

theorem rises_runEngine (hx : o.registry.adapterFor i = some x) (scan : Scan) (task : PlannedTask)
    (seedUrls : List String) (covered : RequestKnowledgeBase) :
    Effect.Rises time (o.runEngine scan target x task seedUrls covered) := by
  refine (h.metadata i x hx).bind fun md ↦ h.rises_newIds.bind fun ids ↦ ?_
  refine Effect.Moves.bind (.ofExcept _) fun request ↦ ?_
  exact (h.rises_attempt hx request).bind fun observations ↦ .pure _

theorem rises_runTask (scan : Scan) (scope : ScopeEngine) (progress : Progress)
    (entry : StageKind × PlannedTask) :
    Effect.Rises time (o.runTask scan target scope progress entry) := by
  unfold Orchestrator.runTask
  cases hx : o.registry.adapterFor entry.2.engineId with
  | none => exact .pure _
  | some x =>
      refine (h.rises_runEngine hx scan entry.2 _ _).bind fun result ↦ ?_
      exact Effect.Moves.bind (.ofExcept _) fun discovered ↦ .pure _

theorem dated_runTask {scope : ScopeEngine} {progress progress' : Progress}
    {entry : StageKind × PlannedTask} {w w' : σ} (hdated : Dated time progress.observations w)
    (hrun : o.runTask scan target scope progress entry w = (.ok progress', w')) :
    Dated time progress'.observations w' := by
  have hlater := (h.rises_runTask scan scope progress entry).of_run hrun
  unfold Orchestrator.runTask at hrun
  cases hx : o.registry.adapterFor entry.2.engineId with
  | none =>
      simp only [hx] at hrun
      obtain ⟨rfl, rfl⟩ := Effect.eq_of_pure hrun
      exact hdated
  | some x =>
      simp only [hx] at hrun
      obtain ⟨⟨observations, covered⟩, w₁, hengine, hrest⟩ := Effect.exists_of_bind_ok hrun
      obtain ⟨discovered, w₂, hdiscovered, hrest⟩ := Effect.exists_of_bind_ok hrest
      obtain ⟨rfl, rfl⟩ := Effect.eq_of_pure hrest
      obtain ⟨md, w₃, -, hengine⟩ := Effect.exists_of_bind_ok hengine
      obtain ⟨ids, w₄, -, hengine⟩ := Effect.exists_of_bind_ok hengine
      obtain ⟨request, w₅, -, hengine⟩ := Effect.exists_of_bind_ok hengine
      obtain ⟨reported, w₆, hattempt, hengine⟩ := Effect.exists_of_bind_ok hengine
      obtain ⟨hpair, rfl⟩ := Effect.eq_of_pure hengine
      obtain ⟨rfl, -⟩ := Prod.mk.inj hpair
      obtain ⟨-, rfl⟩ := Prod.mk.inj hdiscovered
      intro obs hobs
      rcases List.mem_append.mp hobs with hobs | hobs
      · exact (hdated obs hobs).trans hlater
      · exact h.dated_attempt hx hattempt obs hobs

theorem rises_engineLoop (scan : Scan) (scope : ScopeEngine)
    (tasks : List (StageKind × PlannedTask)) :
    Effect.Rises time (o.engineLoop scan target scope tasks) :=
  .foldl (fun entry _ progress ↦ h.rises_runTask scan scope progress entry) _

theorem dated_engineLoop {scope : ScopeEngine} {tasks : List (StageKind × PlannedTask)}
    {progress : Progress} {w w' : σ}
    (hrun : o.engineLoop scan target scope tasks w = (.ok progress, w')) :
    Dated time progress.observations w' := by
  refine Effect.foldl_ok_invariant (J := fun progress w ↦ Dated time progress.observations w)
    (fun entry _ progress w progress' w' hdated hstep ↦ h.dated_runTask hdated hstep) ?_ hrun
  exact fun obs hobs ↦ absurd hobs List.not_mem_nil

/-! ## Validation and correlation -/

theorem rises_validateOne {factory : Target → Effect PyError σ (Prober σ)}
    (hfactory : o.proberFactory = some factory) {w w' : σ} {prober : Prober σ}
    (hprober : factory target w = (.ok prober, w')) (obs : Observation) :
    Effect.Rises time (validateOne o.validation (Effect.total o.env.clock) prober obs) := by
  refine Effect.Moves.recover ?_ fun _ ↦ .pure _
  unfold ValidationEngine.validate
  cases hstrategy : o.validation.strategies.find? (·.handles obs) with
  | none => exact .pure _
  | some strategy =>
      have hmem := List.mem_of_find?_eq_some hstrategy
      have hvalidate := h.validate factory hfactory w prober w' hprober strategy hmem obs
      refine hvalidate.bind fun result ↦ ?_
      exact h.rises_clock.bind fun now ↦ .pure _

theorem dated_validateOne {factory : Target → Effect PyError σ (Prober σ)}
    (hfactory : o.proberFactory = some factory) {w w' : σ} {prober : Prober σ}
    (hprober : factory target w = (.ok prober, w')) {obs obs' : Observation} {w₁ w₂ : σ}
    (hobs : obs.observedAt ≤ time w₁)
    (hrun : validateOne o.validation (Effect.total o.env.clock) prober obs w₁ = (.ok obs', w₂)) :
    obs'.observedAt ≤ time w₂ := by
  have hlater := (h.rises_validateOne hfactory hprober obs).of_run hrun
  rcases hguarded : o.validation.validate (Effect.total o.env.clock) obs prober w₁ with
    ⟨result, w₃⟩
  cases result with
  | error e =>
      have hhandled := Effect.recover_of_error hguarded fun _ ↦
        (pure obs : Effect PyError σ Observation)
      obtain ⟨rfl, -⟩ := Effect.eq_of_pure (hhandled.symm.trans hrun)
      exact hobs.trans hlater
  | ok validated =>
      have hreturned := Effect.recover_of_ok hguarded fun _ ↦
        (pure obs : Effect PyError σ Observation)
      obtain ⟨rfl, rfl⟩ := Effect.ok_unique hreturned hrun
      rcases validate_cases hguarded with
        ⟨rfl, -⟩ | ⟨strategy, result, w₄, now, -, -, hnow, rfl⟩
      · exact hobs.trans hlater
      · obtain ⟨rfl, rfl⟩ := Effect.ok_unique (Effect.total_apply o.env.clock w₄) hnow
        exact h.clock.later w₄

theorem rises_validationStage (observations : List Observation) :
    Effect.Rises time (o.validationStage target observations) := by
  unfold Orchestrator.validationStage
  cases hfactory : o.proberFactory with
  | none => exact .pure _
  | some factory =>
      simp only
      split_ifs
      · refine (h.factory factory hfactory).bind_of_ok fun w prober w' hprober ↦ ?_
        refine Effect.Moves.collect (fun obs _ ↦ ?_) w'
        exact (h.rises_validateOne hfactory hprober obs).bind fun _ ↦ .pure _
      · exact .pure _

theorem dated_validateAll {factory : Target → Effect PyError σ (Prober σ)}
    (hfactory : o.proberFactory = some factory) {w w' : σ} {prober : Prober σ}
    (hprober : factory target w = (.ok prober, w')) {observations observations' : List Observation}
    {w₁ w₂ : σ} (hdated : Dated time observations w₁)
    (hrun : validateAll o.validation (Effect.total o.env.clock) prober observations w₁ =
      (.ok observations', w₂)) : Dated time observations' w₂ ∧ time w₁ ≤ time w₂ := by
  induction observations generalizing observations' w₁ with
  | nil =>
      obtain ⟨rfl, rfl⟩ := Effect.eq_of_pure hrun
      exact ⟨hdated, le_rfl⟩
  | cons obs observations ih =>
      obtain ⟨hobs, hothers⟩ := List.forall_mem_cons.mp hdated
      have hothers : Dated time observations w₁ := hothers
      obtain ⟨first, w₃, hfirst, hrun⟩ := Effect.exists_of_bind_ok hrun
      obtain ⟨rest, w₄, hrest, hrun⟩ := Effect.exists_of_bind_ok hrun
      obtain ⟨rfl, rfl⟩ := Effect.eq_of_pure hrun
      obtain ⟨validated, w₅, hround, hfirst⟩ := Effect.exists_of_bind_ok hfirst
      obtain ⟨rfl, rfl⟩ := Effect.eq_of_pure hfirst
      have hnow := h.dated_validateOne hfactory hprober hobs hround
      have hround := (h.rises_validateOne hfactory hprober obs).of_run hround
      obtain ⟨hall, hlater⟩ := ih (hothers.later hround) hrest
      refine ⟨?_, hround.trans hlater⟩
      intro obs' hobs'
      rcases List.mem_cons.mp hobs' with rfl | hobs'
      · exact hnow.trans hlater
      · exact hall obs' hobs'

theorem dated_validationStage {observations observations' : List Observation} {w w' : σ}
    (hdated : Dated time observations w)
    (hrun : o.validationStage target observations w = (.ok observations', w')) :
    Dated time observations' w' := by
  unfold Orchestrator.validationStage at hrun
  cases hfactory : o.proberFactory with
  | none =>
      simp only [hfactory] at hrun
      obtain ⟨rfl, rfl⟩ := Effect.eq_of_pure hrun
      exact hdated
  | some factory =>
      simp only [hfactory] at hrun
      split_ifs at hrun
      · obtain ⟨prober, w₁, hprober, hrun⟩ := Effect.exists_of_bind_ok hrun
        have hlater := (h.factory factory hfactory).of_run hprober
        exact (h.dated_validateAll hfactory hprober (hdated.later hlater) hrun).1
      · obtain ⟨rfl, rfl⟩ := Effect.eq_of_pure hrun
        exact hdated

theorem rises_correlate (scan : Scan) (observations : List Observation) :
    Effect.Rises time (o.correlate scan target observations) :=
  h.rises_newIds.bind fun _ ↦ .pure _

theorem rises_mergeAcrossScans (previous current : List UnifiedFinding) :
    Effect.Rises time (o.mergeAcrossScans previous current) := by
  refine Effect.Moves.collect fun f _ ↦ ?_
  cases previous.reverse.find? (·.fingerprint = f.fingerprint) with
  | none => exact .pure _
  | some old => exact h.rises_clock.bind fun now ↦ .pure _

theorem rises_assess (loads : String → Except PyError Json) (findings : List UnifiedFinding) :
    Effect.Rises time (assess loads o.analyst findings) := by
  unfold assess
  split_ifs
  · exact .pure _
  · refine h.available.bind fun available ↦ ?_
    split_ifs
    · exact .pure _
    · refine Effect.Moves.bind (.recover ?_ fun _ ↦ .pure _) fun reply ↦ ?_
      · exact (h.complete findings).bind fun resp ↦ .pure _
      · cases reply with
        | none => exact .pure _
        | some resp => exact Effect.Moves.bind (.ofExcept _) fun data ↦ .ofExcept _

end Timely

/-! ## The stages -/

theorem unreported_storeObservations (observations : List Observation) :
    Effect.Moves (Unreported time scan)
      (storeObservations observations : Effect PyError (Platform σ) Unit) := by
  intro p
  unfold storeObservations
  split_ifs
  · exact refl_of (Unreported time scan) p
  · cases hadd : p.db.addObservations observations with
    | error e =>
        rw [unitOfWork_of_error hadd]
        exact refl_of (Unreported time scan) p
    | ok db =>
        rw [unitOfWork_of_ok hadd]
        unfold Database.addObservations at hadd
        simp only at hadd
        split_ifs at hadd
        obtain rfl := Except.ok.inj hadd
        exact ⟨⟨fun _ _ ↦ Iff.rfl, fun _ _ ↦ Iff.rfl, fun hown ↦ hown, le_rfl⟩, rfl,
          fun hopen ↦ hopen⟩

/-- A change of state that does not complete the scan, and what is done with it then. -/
theorem unreported_setState_bind {α : Type} {f : Scan → Effect PyError (Platform σ) α}
    (hclock : Clocked time o.env.clock) (hsame : SameScan scan scan') (hdst : dst ≠ .completed)
    (hf : ∀ scan'', SameScan scan scan'' → Effect.Moves (Unreported time scan) (f scan'')) :
    Effect.Moves (Unreported time scan) (o.setState scan' dst reason >>= f) :=
  (unreported_setState hclock hsame hdst reason).bind_of_returns
    (returns_setState hclock hsame dst reason) hf

theorem returns_setState_bind {α : Type} {f : Scan → Effect PyError (Platform σ) α} {Q : α → Prop}
    (hclock : Clocked time o.env.clock) (hsame : SameScan scan scan')
    (hf : ∀ scan'', SameScan scan scan'' → Effect.Returns (f scan'') Q) :
    Effect.Returns (o.setState scan' dst reason >>= f) Q :=
  (returns_setState hclock hsame dst reason).bind hf

section Stages

variable (h : Timely time o target)

include h

theorem unreported_refuse (scan : Scan) :
    Effect.Moves (Unreported time scan) (o.refuse scan) := by
  refine unreported_setState_bind h.clock (.refl scan) (by decide) fun scan₁ h₁ ↦ ?_
  refine unreported_setState_bind h.clock h₁ (by decide) fun scan₂ h₂ ↦ ?_
  exact unreported_setState_bind h.clock h₂ (by decide) fun _ _ ↦ .pure _

theorem unreported_planStage (scan : Scan) :
    Effect.Moves (Unreported time scan) (o.planStage scan target) := by
  refine unreported_setState_bind h.clock (.refl scan) (by decide) fun scan₁ h₁ ↦ ?_
  refine unreported_setState_bind h.clock h₁ (by decide) fun scan₂ h₂ ↦ ?_
  refine unreported_setState_bind h.clock h₂ (by decide) fun scan₃ _ ↦ ?_
  exact (unreported_outside h.rises_clock).bind fun now ↦ .pure _

theorem returns_planStage (scan : Scan) :
    Effect.Returns (o.planStage scan target) fun r ↦ SameScan scan r.1 := by
  refine returns_setState_bind h.clock (.refl scan) fun scan₁ h₁ ↦ ?_
  refine returns_setState_bind h.clock h₁ fun scan₂ h₂ ↦ ?_
  refine returns_setState_bind h.clock h₂ fun scan₃ h₃ ↦ ?_
  exact (Effect.Returns.trivial _).bind fun now _ ↦ .pure h₃

theorem unreported_engineStage (hsame : SameScan scan scan') (scope : ScopeEngine)
    (plan : ScanPlan) :
    Effect.Moves (Unreported time scan) (o.engineStage scan' target scope plan) := by
  refine (unreported_outside (h.rises_engineLoop scan' scope plan.tasks)).bind fun progress ↦ ?_
  refine (unreported_storeObservations progress.observations).bind fun _ ↦ ?_
  exact unreported_setState_bind h.clock hsame (by decide) fun _ _ ↦ .pure _

theorem returns_engineStage (hsame : SameScan scan scan') (scope : ScopeEngine) (plan : ScanPlan) :
    Effect.Returns (o.engineStage scan' target scope plan) fun r ↦ SameScan scan r.1 := by
  refine (Effect.Returns.trivial _).bind fun progress _ ↦ ?_
  refine (Effect.Returns.trivial _).bind fun _ _ ↦ ?_
  exact returns_setState_bind h.clock hsame fun scan'' h'' ↦ .pure h''

theorem dated_engineStage {scope : ScopeEngine} {plan : ScanPlan} {progress : Progress}
    (hrun : o.engineStage scan target scope plan p = (.ok (scan', progress), p')) :
    Dated time progress.observations p'.world := by
  obtain ⟨gathered, p₁, hloop, hrest⟩ := Effect.exists_of_bind_ok hrun
  have hdated : Dated time gathered.observations p₁.world :=
    h.dated_engineLoop (exists_of_outside hloop).1
  have hlater : Effect.Moves (Unreported time scan) (storeObservations gathered.observations >>=
      fun _ ↦ o.setState scan .correlating none >>= fun scan' ↦ pure (scan', gathered)) :=
    (unreported_storeObservations gathered.observations).bind fun _ ↦
      unreported_setState_bind h.clock (.refl scan) (by decide) fun _ _ ↦ .pure _
  have hmoved := (hlater.of_run hrest).later
  obtain ⟨-, p₂, -, hrest⟩ := Effect.exists_of_bind_ok hrest
  obtain ⟨scan₁, p₃, -, hrest⟩ := Effect.exists_of_bind_ok hrest
  obtain ⟨hpair, -⟩ := Effect.eq_of_pure hrest
  obtain ⟨-, rfl⟩ := Prod.mk.inj hpair
  exact hdated.later hmoved

theorem unreported_mergeHistory (scan' : Scan) (findings : List UnifiedFinding) :
    Effect.Moves (Unreported time scan) (o.mergeHistory scan' target findings) := by
  refine Effect.Moves.get.bind fun p ↦ ?_
  cases (p.db.listScans scan'.tenantId (some .completed)).filter
      (fun s ↦ s.targetId = target.id ∧ s.id ≠ scan'.id) with
  | nil => exact .pure _
  | cons last rest => exact unreported_outside (h.rises_mergeAcrossScans _ _)

theorem unreported_correlationStage (hsame : SameScan scan scan')
    (observations : List Observation) :
    Effect.Moves (Unreported time scan) (o.correlationStage scan' target observations) := by
  refine (unreported_outside (h.rises_validationStage _)).bind fun validated ↦ ?_
  refine (unreported_outside (h.rises_correlate _ _)).bind fun findings ↦ ?_
  refine (unreported_mergeHistory h _ _).bind fun merged ↦ ?_
  refine unreported_setState_bind h.clock hsame (by decide) fun scan₁ h₁ ↦ ?_
  exact unreported_setState_bind h.clock h₁ (by decide) fun _ _ ↦ .pure _

theorem returns_correlationStage (hsame : SameScan scan scan') (observations : List Observation) :
    Effect.Returns (o.correlationStage scan' target observations) fun r ↦ SameScan scan r.1 := by
  refine (Effect.Returns.trivial _).bind fun validated _ ↦ ?_
  refine (Effect.Returns.trivial _).bind fun findings _ ↦ ?_
  refine (Effect.Returns.trivial _).bind fun merged _ ↦ ?_
  refine returns_setState_bind h.clock hsame fun scan₁ h₁ ↦ ?_
  exact returns_setState_bind h.clock h₁ fun scan₂ h₂ ↦ .pure h₂

end Stages

/-! ## The report -/

/-- If a row says that the scan is completed, the stored state does. -/
def Concluded (scan : Scan) (p : Platform σ) : Prop :=
  ∀ row ∈ p.db.scans, row.id = scan.id → row.state = .completed →
    p.db.storedState scan.id = some .completed

theorem Incomplete.concluded (h : Incomplete scan p) : Concluded scan p :=
  fun row hrow hid hstate ↦ absurd hstate (h row hrow hid)

theorem storedState_of_incomplete (h : Incomplete scan p) :
    p.db.storedState scan.id ≠ some .completed := by
  intro hstate
  obtain ⟨row, hrow, hstate⟩ := Option.map_eq_some_iff.mp hstate
  have hid : row.id = scan.id := by simpa using List.find?_some hrow
  exact h row (List.mem_of_find?_eq_some hrow) hid hstate

theorem concluded_setState (hclock : Clocked time o.env.clock) (hsame : SameScan scan scan')
    (hopen : Incomplete scan p) (reason : Option String) :
    Concluded scan (o.setState scan' .completed reason p).2 := by
  rcases setState_writes hclock hsame .completed reason p with
    herror | ⟨-, hidle⟩ | ⟨scan'', entry, w, hwrite, hsame'', hstate, -⟩
  · rw [herror]
    exact hopen.concluded
  · rw [hidle]
    exact hopen.concluded
  · rw [hwrite]
    intro row _ _ _
    rw [Database.storedState_record, ← hsame''.id, Database.storedState_upsertScan_self, hstate]

theorem keeps_setState (hclock : Clocked time o.env.clock) (scan : Scan) (dst : ScanState)
    (reason : Option String) :
    Effect.Keeps (fun p : Platform σ ↦ p.db.findings) (o.setState scan dst reason) := by
  intro p
  rcases setState_writes hclock (.refl scan) dst reason p with
    herror | ⟨-, hidle⟩ | ⟨scan'', entry, w, hwrite, -, -, -⟩
  · rw [herror]
  · rw [hidle]
  · rw [hwrite]
    exact findings_of_write

/-- Findings of a scan that has none are appended to the table. -/
theorem findings_of_writes {findings done : List UnifiedFinding} {rows : List FindingRow}
    {db db' : Database} {i : String} (hrows : ∀ row ∈ rows, row.scanId ≠ i)
    (hscan : ∀ f ∈ done ++ findings, f.scanId = i)
    (hnodup : ((done ++ findings).map UnifiedFinding.fingerprint).Nodup)
    (hdb : db.findings = rows ++ done.map Database.newFindingRow)
    (hrun : findings.foldlM (fun db f ↦ db.upsertFinding f) db = .ok db') :
    db' = { db with findings := rows ++ (done ++ findings).map Database.newFindingRow } := by
  induction findings generalizing db done with
  | nil =>
      obtain rfl := Except.ok.inj hrun
      rw [List.append_nil, ← hdb]
  | cons f findings ih =>
      rw [List.foldlM_cons] at hrun
      obtain ⟨db₁, hfirst, hrest⟩ := ExceptList.exists_of_bind_ok hrun
      have hnone : db.findings.any (Database.samePlace f) = false := by
        rw [hdb, List.any_eq_false]
        intro row hrow hsame
        obtain ⟨hsameScan, hsameKey⟩ := of_decide_eq_true hsame
        rcases List.mem_append.mp hrow with hrow | hrow
        · exact hrows row hrow (hsameScan.trans (hscan f (by simp)))
        · obtain ⟨f', hf', rfl⟩ := List.mem_map.mp hrow
          rw [List.map_append, List.map_cons, List.nodup_append] at hnodup
          exact hnodup.2.2 _ (List.mem_map_of_mem hf') _ List.mem_cons_self hsameKey
      have hupsert := Database.findings_upsertFinding hfirst
      rw [Table.upsert, if_neg (by simp [hnone])] at hupsert
      rw [List.append_cons] at hscan hnodup ⊢
      have hdone := ih hscan hnodup (by rw [hupsert]; simp [hdb]) hrest
      rw [hdone, hupsert]

/-- The findings are stored as they are, and nothing else is done to findings. -/
structure Stored (time : σ → Time) (scan : Scan) (written : List UnifiedFinding)
    (p p' : Platform σ) : Prop extends Touched time scan p p' where
  stored : p'.db.findings = p.db.findings ++ written.map Database.newFindingRow
  concluded : Concluded scan p'

theorem reportStage_writes (h : Timely time o target) (hsame : SameScan scan scan')
    {findings : List UnifiedFinding} (hfresh : ∀ row ∈ p.db.findings, row.scanId ≠ scan.id)
    (hopen : Incomplete scan p) (hscan : ∀ f ∈ findings, f.scanId = scan.id)
    (hnodup : (findings.map UnifiedFinding.fingerprint).Nodup) :
    (o.reportStage scan' findings p).2 = p ∨
      Stored time scan findings p (o.reportStage scan' findings p).2 := by
  cases hwrite : findings.foldlM (fun db f ↦ Database.upsertFinding db f) p.db with
  | error e =>
      have hunit : unitOfWork (fun db ↦ findings.foldlM (fun db f ↦ db.upsertFinding f) db) p =
          (.error e, p) := unitOfWork_of_error hwrite
      exact Or.inl (congrArg Prod.snd (Effect.bind_of_error hunit _))
  | ok db =>
      have hdb : db = { p.db with
          findings := p.db.findings ++ findings.map Database.newFindingRow } :=
        @findings_of_writes findings [] p.db.findings p.db db scan.id hfresh hscan hnodup (by simp)
          hwrite
      have hunit : unitOfWork (fun db ↦ findings.foldlM (fun db f ↦ db.upsertFinding f) db) p =
          (.ok (), { p with db := db }) := unitOfWork_of_ok hwrite
      have hrows : ∀ row ∈ findings.map Database.newFindingRow, row.scanId = scan.id := by
        intro row hrow
        obtain ⟨f, hf, rfl⟩ := List.mem_map.mp hrow
        exact hscan f hf
      have hwritten : Touched time scan p { p with db := db } := by
        refine ⟨fun row _ ↦ by rw [hdb], fun row hrow ↦ ?_, fun hown ↦ by rwa [hdb], le_rfl⟩
        rw [hdb, List.mem_append]
        exact or_iff_left fun hmem ↦ hrow (hrows row hmem)
      have hstillOpen : Incomplete scan { p with db := db } := by rwa [Incomplete, hdb]
      refine Or.inr ?_
      rw [Orchestrator.reportStage, Effect.bind_of_ok hunit]
      rcases hassess : outside (assess o.env.loads o.analyst findings) { p with db := db } with
        ⟨result, q⟩
      have hlater : Unreported time scan { p with db := db } q :=
        (unreported_outside (h.rises_assess _ findings)).of_run hassess
      have htouched := trans_of (Touched time scan) hwritten hlater.toTouched
      have hstored : q.db.findings = p.db.findings ++ findings.map Database.newFindingRow := by
        rw [hlater.unstored, hdb]
      have hopenNow := hlater.incomplete hstillOpen
      cases result with
      | error e =>
          rw [Effect.bind_of_error hassess]
          exact ⟨htouched, hstored, hopenNow.concluded⟩
      | ok ai =>
          rw [Effect.bind_of_ok hassess, Effect.snd_bind_pure]
          refine ⟨trans_of (Touched time scan) htouched (moves_setState h.clock hsame _ _ q), ?_,
            concluded_setState h.clock hsame hopenNow _⟩
          exact (keeps_setState h.clock scan' _ _ q).trans hstored

end Vantage.Scan
