import Vantage.Ai.Presentation
import Vantage.Knowledge.Base
import Vantage.Scan.Rescans
import Vantage.Scan.Returned

/-!
# What a run leaves in the database

When a run returns, what it reports and what it has stored are the same: the
observations, the findings and the scan itself.
-/

namespace Vantage.Scan

open Engines Findings Persistence Scope Ai

variable {σ : Type} {o : Orchestrator σ} {scan scan' : Scan} {target : Target}
  {p p' : Platform σ} {dst : ScanState} {reason : Option String} {report : ScanReport}

/-! ## The tables of results -/

/-- The tables that hold what engines and correlation have found. -/
def results (p : Platform σ) : List ObservationRow × List FindingRow :=
  (p.db.observations, p.db.findings)

theorem exists_of_unitOfWork {body : Database → Except PyError Database}
    (h : unitOfWork body p = (.ok (), p')) :
    ∃ db, body p.db = .ok db ∧ p' = { p with db := db } := by
  cases hbody : body p.db with
  | error e =>
      rw [unitOfWork_of_error hbody] at h
      exact absurd (congrArg Prod.fst h) (by simp)
  | ok db =>
      rw [unitOfWork_of_ok hbody] at h
      exact ⟨db, rfl, (congrArg Prod.snd h).symm⟩

theorem results_upsertScan (db : Database) (scan : Scan) (entry : AuditRow) (w : σ) :
    results ⟨(db.upsertScan scan).record entry, w⟩ = results ⟨db, w⟩ := by
  unfold results Database.upsertScan
  split_ifs <;> rfl

theorem results_setState (o : Orchestrator σ) (scan : Scan) (dst : ScanState)
    (reason : Option String) : Effect.Keeps results (o.setState scan dst reason) := by
  intro p
  rcases setState_cases o.env.clock scan dst reason p with
    ⟨-, hrun⟩ | ⟨-, -, hrun⟩ | ⟨-, -, scan', entry, w, -, -, hrun⟩
  · rw [Orchestrator.setState, hrun]
  · rw [Orchestrator.setState, hrun]
  · rw [Orchestrator.setState, hrun]
    exact results_upsertScan p.db scan' entry w

theorem results_outside {α : Type} (m : Effect PyError σ α) :
    Effect.Keeps results (outside m) := fun _ ↦ rfl

theorem results_refuse (o : Orchestrator σ) (scan : Scan) :
    Effect.Keeps results (o.refuse scan) := by
  refine (results_setState o scan _ _).bind fun scan₁ ↦ ?_
  refine (results_setState o scan₁ _ _).bind fun scan₂ ↦ ?_
  exact (results_setState o scan₂ _ _).bind fun scan₃ ↦ .pure _

theorem results_planStage (o : Orchestrator σ) (scan : Scan) (target : Target) :
    Effect.Keeps results (o.planStage scan target) := by
  refine (results_setState o scan _ _).bind fun scan₁ ↦ ?_
  refine (results_setState o scan₁ _ _).bind fun scan₂ ↦ ?_
  refine (results_setState o scan₂ _ _).bind fun scan₃ ↦ ?_
  exact (results_outside _).bind fun now ↦ .pure _

theorem results_mergeHistory (o : Orchestrator σ) (scan : Scan) (target : Target)
    (findings : List UnifiedFinding) :
    Effect.Keeps results (o.mergeHistory scan target findings) := by
  refine Effect.Keeps.get.bind fun p ↦ ?_
  cases (p.db.listScans scan.tenantId (some .completed)).filter
      (fun s ↦ s.targetId = target.id ∧ s.id ≠ scan.id) with
  | nil => exact .pure _
  | cons last rest => exact results_outside _

theorem results_correlationStage (o : Orchestrator σ) (scan : Scan) (target : Target)
    (observations : List Observation) :
    Effect.Keeps results (o.correlationStage scan target observations) := by
  refine (results_outside _).bind fun validated ↦ ?_
  refine (results_outside _).bind fun findings ↦ ?_
  refine (results_mergeHistory o scan target findings).bind fun merged ↦ ?_
  refine (results_setState o scan _ _).bind fun scan₁ ↦ ?_
  exact (results_setState o scan₁ _ _).bind fun scan₂ ↦ .pure _

theorem results_of_run {α : Type} {m : Effect PyError (Platform σ) α}
    (h : Effect.Keeps results m) {a : α} (hrun : m p = (.ok a, p')) :
    p'.db.observations = p.db.observations ∧ p'.db.findings = p.db.findings := by
  have hkeeps := h p
  rw [hrun] at hkeeps
  exact Prod.mk.inj hkeeps

/-! ## The scan -/

/-- A scan that has entered a state is stored as it is. -/
theorem getScan_of_setState (hne : scan.state ≠ dst)
    (hrun : o.setState scan dst reason p = (.ok scan', p')) :
    p'.db.getScan scan'.id = some scan' := by
  rcases setState_cases o.env.clock scan dst reason p with
    ⟨hsame, -⟩ | ⟨-, -, herror⟩ | ⟨-, -, scan₁, entry, w, -, -, hok⟩
  · exact absurd hsame hne
  · exact absurd (congrArg Prod.fst (herror.symm.trans hrun)) (by simp)
  · obtain ⟨rfl, rfl⟩ := Effect.ok_unique hok hrun
    obtain ⟨row, hrow, hmirrors⟩ := Database.exists_row_upsertScan p.db scan₁
    rw [Database.getScan, Database.getScanRow_record, hrow, Option.map_some, hmirrors.payload]

/-! ## The observations -/

theorem observations_of_store {observations : List Observation}
    (hrun : storeObservations observations p = (.ok (), p')) :
    p'.db.observations = p.db.observations ++ observations.map Database.newObservationRow ∧
      p'.db.findings = p.db.findings := by
  cases observations with
  | nil =>
      obtain ⟨-, rfl⟩ := Effect.eq_of_pure hrun
      exact ⟨(List.append_nil _).symm, rfl⟩
  | cons obs observations =>
      by_cases hstorable : Storable p.db (obs :: observations)
      · have hnodup := hstorable.resolve_left (List.cons_ne_nil _ _)
        rw [storeObservations_cons, unitOfWork_of_ok (addObservations_of_nodup hnodup)] at hrun
        obtain rfl := congrArg Prod.snd hrun
        exact ⟨rfl, rfl⟩
      · rw [storeObservations_of_not_storable hstorable] at hrun
        exact absurd (congrArg Prod.fst hrun) (by simp)

/-- The knowledge base has marked what the loop has gathered. -/
theorem Loops.covered {scope : ScopeEngine} {tasks : List (StageKind × PlannedTask)}
    {progress progress' : Progress} {s s' : σ} {runs : List TaskRun}
    (h : Loops o scan target scope tasks progress s runs progress' s')
    (hstart : progress.covered = .markAll .empty progress.observations) :
    progress'.covered = .markAll .empty progress'.observations := by
  induction h with
  | nil => exact hstart
  | unbound _ _ ih => exact ih hstart
  | bound _ _ _ _ _ _ ih =>
      apply ih
      rw [hstart, RequestKnowledgeBase.markAll, RequestKnowledgeBase.markAll,
        RequestKnowledgeBase.markAll, List.foldl_append]

/-- Every planned task is reported as run or as failed. -/
theorem Loops.length_tasks {scope : ScopeEngine} {tasks : List (StageKind × PlannedTask)}
    {progress progress' : Progress} {s s' : σ} {runs : List TaskRun}
    (h : Loops o scan target scope tasks progress s runs progress' s') :
    progress'.enginesRun.length + progress'.enginesFailed.length =
      progress.enginesRun.length + progress.enginesFailed.length + tasks.length := by
  induction h with
  | nil => rfl
  | unbound _ _ ih =>
      simp only [List.length_append, List.length_cons, List.length_nil] at ih ⊢
      omega
  | bound _ _ _ _ _ _ ih =>
      simp only [List.length_append, List.length_cons, List.length_nil] at ih ⊢
      omega

/-! ## The findings -/

/-- A finding is known by its scan and its fingerprint. -/
def placesOf (findings : List UnifiedFinding) : List (String × String) :=
  findings.map fun f ↦ (f.scanId, f.fingerprint)

theorem places_mergeAcrossScans (o : Orchestrator σ) (previous current : List UnifiedFinding) :
    Effect.Returns (o.mergeAcrossScans previous current) fun findings ↦
      placesOf findings = placesOf current := by
  induction current with
  | nil => exact .pure rfl
  | cons f current ih =>
      rw [Orchestrator.mergeAcrossScans, Effect.collect]
      refine Effect.Returns.bind (Q := fun first ↦ placesOf first = placesOf [f]) ?_ fun first h₁ ↦
        ih.bind fun rest h₂ ↦ .pure ?_
      · cases previous.reverse.find? (·.fingerprint = f.fingerprint) with
        | none => exact .pure rfl
        | some old => exact (Effect.Returns.trivial _).bind fun now _ ↦ .pure rfl
      rw [placesOf, List.map_append]
      exact congrArg₂ (· ++ ·) h₁ h₂

theorem places_mergeHistory (o : Orchestrator σ) (scan : Scan) (target : Target)
    (findings : List UnifiedFinding) :
    Effect.Returns (o.mergeHistory scan target findings) fun merged ↦
      placesOf merged = placesOf findings := by
  refine (Effect.Returns.trivial _).bind fun p _ ↦ ?_
  cases (p.db.listScans scan.tenantId (some .completed)).filter
      (fun s ↦ s.targetId = target.id ∧ s.id ≠ scan.id) with
  | nil => exact .pure rfl
  | cons last rest =>
      intro q merged q' hrun
      exact places_mergeAcrossScans o _ _ _ _ _ (exists_of_outside hrun).1

/-- The findings of one scan, one for each fingerprint. -/
structure Distinct (scan : Scan) (findings : List UnifiedFinding) : Prop where
  scanId : ∀ f ∈ findings, f.scanId = scan.id
  nodup : (findings.map UnifiedFinding.fingerprint).Nodup

theorem distinct_of_places {findings findings' : List UnifiedFinding} (h : Distinct scan findings)
    (hplaces : placesOf findings' = placesOf findings) : Distinct scan findings' where
  scanId f hf := by
    have hplace : (f.scanId, f.fingerprint) ∈ placesOf findings :=
      hplaces ▸ List.mem_map_of_mem hf
    obtain ⟨f', hf', heq⟩ := List.mem_map.mp hplace
    rw [← (Prod.mk.inj heq).1]
    exact h.scanId f' hf'
  nodup := by
    have hkeys := congrArg (List.map Prod.snd) hplaces
    rw [placesOf, placesOf, List.map_map, List.map_map] at hkeys
    change (findings'.map (Prod.snd ∘ fun f ↦ (f.scanId, f.fingerprint))).Nodup
    rw [hkeys]
    exact h.nodup

theorem distinct_correlationStage (o : Orchestrator σ) (scan : Scan) (target : Target)
    (observations : List Observation) :
    Effect.Returns (o.correlationStage scan target observations) fun r ↦
      r.1.state = .reporting ∧ Distinct scan r.2 := by
  refine (Effect.Returns.trivial _).bind fun validated _ ↦ ?_
  have hcorrelate : Effect.Returns (outside (o.correlate scan target validated))
      (Distinct scan) := by
    intro p findings p' hrun
    obtain ⟨ids, w, -, hpure⟩ := Effect.exists_of_bind_ok (exists_of_outside hrun).1
    obtain ⟨rfl, -⟩ := Effect.eq_of_pure hpure
    exact ⟨fun f hf ↦ scanId_correlate hf, nodup_fingerprints⟩
  refine hcorrelate.bind fun findings hfindings ↦ ?_
  refine (places_mergeHistory o scan target findings).bind fun merged hmerged ↦ ?_
  refine (continues_setState o scan _ _).bind fun scan₁ h₁ ↦ ?_
  refine (continues_setState o scan₁ _ _).bind fun scan₂ h₂ ↦ .pure ⟨h₂.2, ?_⟩
  refine distinct_of_places (distinct_of_places hfindings hmerged) ?_
  exact List.map_map

/-- The findings are stored as they are, and reported in some order. -/
theorem reportStage_stores {findings findings' : List UnifiedFinding} {ai : AiAssessment}
    (hfresh : ∀ row ∈ p.db.findings, row.scanId ≠ scan.id) (hdistinct : Distinct scan findings)
    (hstate : scan'.state = .reporting) {scan'' : Scan}
    (hrun : o.reportStage scan' findings p = (.ok (scan'', findings', ai), p')) :
    p'.db.observations = p.db.observations ∧
      p'.db.findings = p.db.findings ++ findings.map Database.newFindingRow ∧
      findings'.Perm findings ∧ p'.db.getScan scan''.id = some scan'' := by
  obtain ⟨⟨⟩, p₁, hwrite, hrun⟩ := Effect.exists_of_bind_ok hrun
  obtain ⟨ai', p₂, hassess, hrun⟩ := Effect.exists_of_bind_ok hrun
  obtain ⟨scan₁, p₃, hset, hrun⟩ := Effect.exists_of_bind_ok hrun
  obtain ⟨hreturned, rfl⟩ := Effect.eq_of_pure hrun
  obtain ⟨rfl, hfindings⟩ := Prod.mk.inj hreturned
  obtain ⟨rfl, rfl⟩ := Prod.mk.inj hfindings
  obtain ⟨db, hdb, rfl⟩ := exists_of_unitOfWork hwrite
  have hstored : db = { p.db with
      findings := p.db.findings ++ findings.map Database.newFindingRow } :=
    @findings_of_writes findings [] p.db.findings p.db db scan.id hfresh hdistinct.scanId
      hdistinct.nodup (by simp) hdb
  obtain ⟨hobs₂, hfindings₂⟩ := results_of_run (results_outside _) hassess
  obtain ⟨hobs₃, hfindings₃⟩ := results_of_run (results_setState o scan' _ _) hset
  refine ⟨?_, ?_, ?_, getScan_of_setState (by simp [hstate]) hset⟩
  · rw [hobs₃, hobs₂, hstored]
  · rw [hfindings₃, hfindings₂, hstored]
  · split_ifs with henabled
    · rw [prioritizedOrder_eq henabled]
      exact List.perm_insertionSort _ _
    · exact List.Perm.refl _

/-- The query for a scan that had no findings gives those that were appended, ranked. -/
theorem findingsForScan_of_appended {db db' : Database} {stored : List UnifiedFinding}
    (hfresh : ∀ row ∈ db.findings, row.scanId ≠ scan.id)
    (hscan : ∀ f ∈ stored, f.scanId = scan.id)
    (hdb : db'.findings = db.findings ++ stored.map Database.newFindingRow) :
    (db'.findingsForScan scan.id).Perm stored ∧
      (db'.findingsForScan scan.id).Pairwise fun f g ↦ g.riskScore ≤ f.riskScore := by
  have hold : db.findings.filter (·.scanId = scan.id) = [] := by
    refine List.filter_eq_nil_iff.mpr fun row hrow hid ↦ ?_
    exact hfresh row hrow (of_decide_eq_true hid)
  have hnew : (stored.map Database.newFindingRow).filter (·.scanId = scan.id) =
      stored.map Database.newFindingRow := by
    refine List.filter_eq_self.mpr fun row hrow ↦ ?_
    obtain ⟨f, hf, rfl⟩ := List.mem_map.mp hrow
    exact decide_eq_true (hscan f hf)
  have hpayload : (stored.map Database.newFindingRow).map FindingRow.payload = stored := by
    rw [List.map_map]
    exact List.map_id stored
  unfold Database.findingsForScan
  rw [hdb, List.filter_append, hold, hnew, List.nil_append]
  constructor
  · have hperm := (List.perm_insertionSort (fun r r' : FindingRow ↦ r'.riskScore ≤ r.riskScore)
      (stored.map Database.newFindingRow)).map FindingRow.payload
    rwa [hpayload] at hperm
  · rw [List.pairwise_map]
    refine (List.pairwise_insertionSort _ _).imp_of_mem fun {row row'} hrow hrow' hle ↦ ?_
    obtain ⟨f, -, rfl⟩ := List.mem_map.mp ((List.mem_insertionSort _).mp hrow)
    obtain ⟨f', -, rfl⟩ := List.mem_map.mp ((List.mem_insertionSort _).mp hrow')
    exact hle

/-! ## The stages -/

theorem planStage_plan (o : Orchestrator σ) (scan : Scan) (target : Target) :
    Effect.Returns (o.planStage scan target) fun r ↦ Continues scan r.1 ∧
      r.1.state = .running ∧ r.2.2.tasks = (o.plan target scan.policy target.baseUrls).tasks := by
  refine (continues_setState o scan _ _).bind fun scan₁ h₁ ↦ ?_
  refine (continues_setState o scan₁ _ _).bind fun scan₂ h₂ ↦ ?_
  refine (continues_setState o scan₂ _ _).bind fun scan₃ h₃ ↦ ?_
  refine (Effect.Returns.trivial _).bind fun now _ ↦ .pure ⟨h₁.1.trans (h₂.1.trans h₃.1), h₃.2, ?_⟩
  rw [← (h₁.1.trans h₂.1).policy]
  rfl

/-- What the engine stage has gathered is stored and counted. -/
theorem engineStage_stores {scope : ScopeEngine} {plan : ScanPlan} {progress : Progress}
    (hrun : o.engineStage scan target scope plan p = (.ok (scan', progress), p')) :
    p'.db.observations =
        p.db.observations ++ progress.observations.map Database.newObservationRow ∧
      p'.db.findings = p.db.findings ∧
      progress.covered = .markAll .empty progress.observations ∧
      progress.enginesRun.length + progress.enginesFailed.length = plan.tasks.length := by
  obtain ⟨progress₁, p₁, hloop, hrun⟩ := Effect.exists_of_bind_ok hrun
  obtain ⟨⟨⟩, p₂, hstore, hrun⟩ := Effect.exists_of_bind_ok hrun
  obtain ⟨scan₁, p₃, hset, hrun⟩ := Effect.exists_of_bind_ok hrun
  obtain ⟨hpair, rfl⟩ := Effect.eq_of_pure hrun
  obtain ⟨rfl, rfl⟩ := Prod.mk.inj hpair
  obtain ⟨hloop, hdb⟩ := exists_of_outside hloop
  obtain ⟨runs, hloops⟩ := engineLoop_ok_iff.mp hloop
  obtain ⟨hobs, hfindings⟩ := observations_of_store hstore
  obtain ⟨hobs', hfindings'⟩ := results_of_run (results_setState o scan _ _) hset
  refine ⟨?_, ?_, hloops.covered rfl, ?_⟩
  · rw [hobs', hobs, hdb]
  · rw [hfindings', hfindings, hdb]
  · rw [hloops.length_tasks]
    exact Nat.zero_add _

/-! ## The law -/

/-- What the database holds of a run that has returned its report. -/
structure Leaves (o : Orchestrator σ) (scan : Scan) (target : Target) (report : ScanReport)
    (db db' : Database) : Prop where
  row : db'.getScan scan.id = some report.scan
  observations : ∃ observations : List Observation,
    db'.observations = db.observations ++ observations.map Database.newObservationRow ∧
      report.observations = observations.length ∧
      (report.scan.state = .completed → report.coverageEntries = some
        (observations.map fun obs ↦ (coverageKey obs.location, obs.vulnClass)).toFinset.card)
  findings : ∃ stored : List UnifiedFinding, stored.Perm report.findings ∧
    db'.findings = db.findings ++ stored.map Database.newFindingRow
  answer : (db'.findingsForScan scan.id).Perm report.findings
  ranked : (db'.findingsForScan scan.id).Pairwise fun f g ↦ g.riskScore ≤ f.riskScore
  tasks : report.scan.state = .completed →
    report.enginesRun.length + report.enginesFailed.length =
      (o.plan target scan.policy target.baseUrls).tasks.length

theorem leaves_refuse (hfresh : ∀ row ∈ p.db.findings, row.scanId ≠ scan.id)
    (hrun : o.refuse scan p = (.ok report, p')) : Leaves o scan target report p.db p'.db := by
  obtain ⟨hobs, hfindings⟩ := results_of_run (results_refuse o scan) hrun
  have hscan := continues_refuse o scan _ _ _ hrun
  obtain ⟨scan₁, p₁, h₁, hrun⟩ := Effect.exists_of_bind_ok hrun
  obtain ⟨scan₂, p₂, h₂, hrun⟩ := Effect.exists_of_bind_ok hrun
  obtain ⟨scan₃, p₃, h₃, hrun⟩ := Effect.exists_of_bind_ok hrun
  obtain ⟨rfl, rfl⟩ := Effect.eq_of_pure hrun
  have hstate₂ : scan₂.state = .planning := (continues_setState o scan₁ _ _ _ _ _ h₂).2
  have hfailed : scan₃.state = .failed := hscan.2.1
  have hnot : ¬ scan₃.state = .completed := by simp [hfailed]
  have hnone : ∀ f ∈ ([] : List UnifiedFinding), f.scanId = scan.id := by simp
  obtain ⟨hanswer, hranked⟩ := findingsForScan_of_appended hfresh hnone
    (hfindings.trans (List.append_nil _).symm)
  refine ⟨?_, ⟨[], ?_, rfl, fun h ↦ absurd h hnot⟩, ⟨[], .nil, ?_⟩, hanswer, hranked,
    fun h ↦ absurd h hnot⟩
  · rw [← hscan.1.id]
    exact getScan_of_setState (by simp [hstate₂]) h₃
  · rw [hobs, List.map_nil, List.append_nil]
  · rw [hfindings, List.map_nil, List.append_nil]

theorem leaves_conduct (hfresh : ∀ row ∈ p.db.findings, row.scanId ≠ scan.id)
    (hrun : o.conduct scan target p = (.ok report, p')) :
    Leaves o scan target report p.db p'.db := by
  have hscan := continues_conduct o scan target _ _ _ hrun
  obtain ⟨⟨scan₁, scope, plan⟩, p₁, hplan, hrun⟩ := Effect.exists_of_bind_ok hrun
  obtain ⟨⟨scan₂, progress⟩, p₂, hengine, hrun⟩ := Effect.exists_of_bind_ok hrun
  obtain ⟨⟨scan₃, findings⟩, p₃, hcorrelation, hrun⟩ := Effect.exists_of_bind_ok hrun
  obtain ⟨⟨scan₄, findings', ai⟩, p₄, hreport, hrun⟩ := Effect.exists_of_bind_ok hrun
  obtain ⟨rfl, rfl⟩ := Effect.eq_of_pure hrun
  obtain ⟨hsame₁, -, htasks⟩ := planStage_plan o scan target _ _ _ hplan
  have hsame₂ := continues_engineStage o scan₁ target scope plan _ _ _ hengine
  obtain ⟨hstate₃, hdistinct⟩ := distinct_correlationStage o scan₂ target _ _ _ _ hcorrelation
  have hid₂ : scan₂.id = scan.id := hsame₂.id.trans hsame₁.id
  obtain ⟨hobs₁, hfindings₁⟩ := results_of_run (results_planStage o scan target) hplan
  obtain ⟨hobs₂, hfindings₂, hcovered, hlength⟩ := engineStage_stores hengine
  obtain ⟨hobs₃, hfindings₃⟩ :=
    results_of_run (results_correlationStage o scan₂ target progress.observations) hcorrelation
  have hbefore : p₃.db.findings = p.db.findings :=
    hfindings₃.trans (hfindings₂.trans hfindings₁)
  have hfresh₃ : ∀ row ∈ p₃.db.findings, row.scanId ≠ scan₂.id := by
    rw [hbefore, hid₂]
    exact hfresh
  obtain ⟨hobs₄, hfindings₄, hperm, hstored⟩ :=
    reportStage_stores hfresh₃ hdistinct hstate₃ hreport
  have hscanId : ∀ f ∈ findings, f.scanId = scan.id := hid₂ ▸ hdistinct.scanId
  have happended : p₄.db.findings = p.db.findings ++ findings.map Database.newFindingRow := by
    rw [hfindings₄, hbefore]
  obtain ⟨hanswer, hranked⟩ := findingsForScan_of_appended hfresh hscanId happended
  refine ⟨?_, ⟨progress.observations, ?_, rfl, fun _ ↦ ?_⟩, ⟨findings, hperm.symm, happended⟩,
    hanswer.trans hperm.symm, hranked, fun _ ↦ ?_⟩
  · rw [← hscan.1.id]
    exact hstored
  · rw [hobs₄, hobs₃, hobs₂, hobs₁]
  · rw [← RequestKnowledgeBase.size_markAll, ← hcovered]
  · rw [← htasks]
    exact hlength

def secondRun : Except PyError ScanReport × Platform Time :=
  secondScan.orchestrator.run secondScan.scan secondScan.target secondScan.before

theorem secondRun_ok : ∃ report, secondRun = (.ok report, secondRun.2) ∧
    report.scan.state = .completed ∧ report.findings.length = 1 ∧ report.observations = 1 := by
  have hcounts : secondRun.1.map (fun r ↦ (r.scan.state, r.findings.length, r.observations)) =
      .ok (.completed, 1, 1) := by
    decide +kernel
  cases hrun : secondRun.1 with
  | error e =>
      rw [hrun] at hcounts
      exact absurd hcounts (by simp [Except.map])
  | ok report =>
      rw [hrun] at hcounts
      obtain ⟨hstate, hcounts⟩ := Prod.mk.inj (Except.ok.inj hcounts)
      obtain ⟨hfindings, hobservations⟩ := Prod.mk.inj hcounts
      exact ⟨report, by rw [← hrun, Prod.mk.eta], hstate, hfindings, hobservations⟩

end Vantage.Scan
