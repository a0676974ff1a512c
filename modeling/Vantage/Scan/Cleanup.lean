import Vantage.Lib.Recorded
import Vantage.Scan.EngineLoop

/-!
# Cleaning up after an engine

The steps of a run share one guarded block, and the cleanup is the last of
them. It is not reached when a step before it raises.
-/

namespace Vantage.Scan

open Engines Findings

variable {σ : Type}

/-! ## Recording the calls -/

inductive EngineEvent (x : EngineAdapter σ) where
  /-- The preparation has returned. -/
  | prepared (run : x.Prepared)
  /-- The normalization has returned. -/
  | normalized (observations : List Observation)
  /-- The cleanup is called. -/
  | cleanup (run : x.Prepared)

/-- The runs that the cleanup was called on. -/
def cleanups {x : EngineAdapter σ} (record : List (EngineEvent x)) : List x.Prepared :=
  record.filterMap fun
    | .cleanup run => some run
    | _ => none

/-- The adapter, whose calls are recorded. -/
def recorded (x : EngineAdapter σ) : EngineAdapter (σ × List (EngineEvent x)) where
  metadata := x.metadata.beside _
  Prepared := x.Prepared
  Outcome := x.Outcome
  Raw := x.Raw
  healthCheck := x.healthCheck.beside _
  prepareTarget request := (x.prepareTarget request).notedAfter .prepared
  executeScan run := (x.executeScan run).beside _
  collectResults outcome := (x.collectResults outcome).beside _
  normalizeResults raw request := (x.normalizeResults raw request).notedAfter .normalized
  cleanup run := (x.cleanup run).notedBefore (.cleanup run)

def Environment.beside (τ : Type) (env : Environment σ) : Environment (σ × τ) where
  clock s := ((env.clock s.1).1, (env.clock s.1).2, s.2)
  newIds s := ((env.newIds s.1).1, (env.newIds s.1).2, s.2)
  regex := env.regex
  loads := env.loads
  digests := env.digests
  evidenceVariable := env.evidenceVariable

variable {x : EngineAdapter σ} {request : EngineRunRequest}

theorem follows_lifecycle (x : EngineAdapter σ) (request : EngineRunRequest) :
    Effect.Follows ((recorded x).lifecycle request) (x.lifecycle request) :=
  .bind (.notedAfter _ _) fun _ ↦ .bind (.beside _) fun _ ↦ .bind (.beside _) fun _ ↦
    .bind (.notedAfter _ _) fun _ ↦ .bind (.notedBefore _ _) fun _ ↦ .pure _

theorem follows_attempt (x : EngineAdapter σ) (request : EngineRunRequest) :
    Effect.Follows (attempt (recorded x) request) (attempt x request) := by
  refine .recover (.bind (.beside _) fun health ↦ ?_) fun _ ↦ .pure _
  split_ifs
  · exact .pure _
  · exact follows_lifecycle x request

section Run

variable (env : Environment σ) (scan : Scan) (target : Target) (x : EngineAdapter σ)
  (task : PlannedTask) (seedUrls : List String) (covered : RequestKnowledgeBase) (s : σ)

/-- `_run_engine` with the recorded adapter, in an environment that keeps the record. -/
def recordedRun (o : Orchestrator (σ × List (EngineEvent x))) :
    Except PyError (List Observation × RequestKnowledgeBase) × σ × List (EngineEvent x) :=
  ({ o with env := env.beside _ } : Orchestrator _).runEngine scan target (recorded x) task seedUrls
    covered (s, [])

/-- The run with a record is the run without it. -/
theorem recordedRun_follows (o : Orchestrator (σ × List (EngineEvent x))) (o' : Orchestrator σ)
    (henv : o'.env = env) :
    ∃ record, recordedRun env scan target x task seedUrls covered s o =
      ((o'.runEngine scan target x task seedUrls covered s).1,
        (o'.runEngine scan target x task seedUrls covered s).2, record) := by
  subst henv
  have hids : Effect.Follows
      (Effect.total (o'.env.beside (List (EngineEvent x))).newIds : Effect PyError _ _)
      (Effect.total o'.env.newIds) := fun _ t ↦ ⟨t, rfl⟩
  have hrun : Effect.Follows
      (({ o with env := o'.env.beside _ } : Orchestrator _).runEngine scan target (recorded x) task
        seedUrls covered) (o'.runEngine scan target x task seedUrls covered) :=
    .bind (.beside _) fun md ↦ .bind hids fun ids ↦ .bind (.ofExcept _) fun request ↦
      .bind (follows_attempt x request) fun _ ↦ .pure _
  exact hrun s []

/-- The health check has passed, and the adapter is asked to prepare the request. -/
def Asked (request : EngineRunRequest) (s' : σ) : Prop :=
  ∃ md s₁ health, x.metadata s = (.ok md, s₁) ∧
    EngineRunRequest.modelValidate ((env.newIds s₁).1 0) (requestOf scan target md task seedUrls) =
      .ok request ∧
    x.healthCheck (env.newIds s₁).2 = (.ok health, s') ∧ health ≠ .unavailable

end Run

/-- The steps between preparation and cleanup. -/
def work (x : EngineAdapter σ) (request : EngineRunRequest) (run : x.Prepared) :
    Effect PyError σ (List Observation) := do
  let outcome ← x.executeScan run
  let raw ← x.collectResults outcome
  x.normalizeResults raw request

/-- The guarded block from the work on. -/
def finish (x : EngineAdapter σ) (request : EngineRunRequest) (run : x.Prepared) :
    Effect PyError σ (List Observation) := do
  let observations ← work x request run
  x.cleanup run
  pure observations

theorem lifecycle_eq (x : EngineAdapter σ) (request : EngineRunRequest) :
    x.lifecycle request = x.prepareTarget request >>= finish x request := by
  have hfinish : finish x request = fun run ↦ x.executeScan run >>= fun outcome ↦
      x.collectResults outcome >>= fun raw ↦ x.normalizeResults raw request >>= fun observations ↦
        x.cleanup run >>= fun _ ↦ pure observations := by
    funext run
    unfold finish work
    rw [Effect.bind_assoc]
    refine congrArg (x.executeScan run >>= ·) (funext fun outcome ↦ ?_)
    rw [Effect.bind_assoc]
  rw [hfinish]
  rfl

theorem work_recorded (request : EngineRunRequest) (run : x.Prepared) :
    work (recorded x) request run = (work x request run).notedAfter .normalized := by
  let event : List Observation → EngineEvent x := .normalized
  have hinner : (fun outcome ↦ (x.collectResults outcome).beside _ >>= fun raw ↦
      (x.normalizeResults raw request).notedAfter event) =
        fun outcome ↦ (x.collectResults outcome >>= fun raw ↦
          x.normalizeResults raw request).notedAfter event :=
    funext fun outcome ↦ Effect.beside_bind_notedAfter event _ _
  refine Eq.trans ?_ (Effect.beside_bind_notedAfter event (x.executeScan run) _)
  exact congrArg ((x.executeScan run).beside _ >>= ·) hinner

variable {run : x.Prepared} {observations : List Observation} {s s₁ s₂ : σ}
  {record : List (EngineEvent x)}

/-- A fault in the work leaves the run as it was prepared. -/
theorem finish_of_work_error {e : PyError} (h : work x request run s = (.error e, s₁)) :
    finish (recorded x) request run (s, record) = (.error e, s₁, record) := by
  have hwork : work (recorded x) request run (s, record) = (.error e, s₁, record) := by
    rw [work_recorded]
    exact Effect.notedAfter_of_error h record
  exact Effect.bind_of_error hwork _

/-- The cleanup is called when the work has returned, and its fault is that of the block. -/
theorem finish_of_work_ok {result : Except PyError Unit}
    (h : work x request run s = (.ok observations, s₁)) (hcleanup : x.cleanup run s₁ = (result, s₂)) :
    finish (recorded x) request run (s, record) = (result.map fun _ ↦ observations, s₂,
      record ++ [.normalized observations] ++ [.cleanup run]) := by
  have hwork : work (recorded x) request run (s, record) =
      (.ok observations, s₁, record ++ [.normalized observations]) := by
    rw [work_recorded]
    exact Effect.notedAfter_of_ok h record
  have hnoted : (recorded x).cleanup run (s₁, record ++ [.normalized observations]) =
      (result, s₂, record ++ [.normalized observations] ++ [.cleanup run]) :=
    Effect.notedBefore_of_eq hcleanup _
  refine (Effect.bind_of_ok hwork _).trans ?_
  cases result with
  | error e => exact Effect.bind_of_error hnoted _
  | ok u => exact Effect.bind_of_ok hnoted _

/-! ## The guarded block -/

theorem attempt_of_prepared {health : HealthState} (hhealth : x.healthCheck s = (.ok health, s₁))
    (havailable : health ≠ .unavailable) (hprepared : x.prepareTarget request s₁ = (.ok run, s₂)) :
    attempt (recorded x) request (s, []) =
      (finish (recorded x) request run).recover (fun _ ↦ pure []) (s₂, [.prepared run]) := by
  have hcheck : (recorded x).healthCheck (s, []) = (.ok health, s₁, []) :=
    Effect.beside_of_eq hhealth _
  have hnoted : (recorded x).prepareTarget request (s₁, []) = (.ok run, s₂, [.prepared run]) :=
    Effect.notedAfter_of_ok hprepared []
  rw [attempt_of_available hcheck havailable, lifecycle_eq]
  unfold Effect.recover
  rw [Effect.bind_of_ok hnoted]

/-- Nothing is recorded of a run that is not prepared. -/
theorem attempt_of_unprepared
    (h : ∀ health s₁ run s₂, x.healthCheck s = (.ok health, s₁) → health ≠ .unavailable →
      x.prepareTarget request s₁ ≠ (.ok run, s₂)) :
    ∃ s', attempt (recorded x) request (s, []) = (.ok [], s', []) := by
  rcases hhealth : x.healthCheck s with ⟨health, s₁⟩
  have hcheck : (recorded x).healthCheck (s, []) = (health, s₁, []) :=
    Effect.beside_of_eq hhealth _
  cases health with
  | error e => exact ⟨s₁, attempt_of_ends (.unhealthy hcheck)⟩
  | ok health =>
      by_cases havailable : health = .unavailable
      · subst havailable
        exact ⟨s₁, attempt_of_ends (.unavailable hcheck)⟩
      · rcases hprepared : x.prepareTarget request s₁ with ⟨result, s₂⟩
        cases result with
        | ok run => exact absurd hprepared (h health s₁ run s₂ hhealth havailable)
        | error e =>
            have hraised : (recorded x).prepareTarget request (s₁, []) = (.error e, s₂, []) :=
              Effect.notedAfter_of_error hprepared []
            have hlifecycle : (recorded x).lifecycle request (s₁, []) = (.error e, s₂, []) :=
              Effect.bind_of_error hraised _
            exact ⟨s₂, attempt_of_ends (.raised hcheck havailable hlifecycle)⟩

/-! ## The law -/

section Law

variable {env : Environment σ} {scan : Scan} {target : Target} {task : PlannedTask}
  {seedUrls : List String} {covered : RequestKnowledgeBase}
  {o : Orchestrator (σ × List (EngineEvent x))} {md : EngineMetadata}

theorem recordedRun_of_attempt (hmetadata : x.metadata s = (.ok md, s₁))
    (hrequest : EngineRunRequest.modelValidate ((env.newIds s₁).1 0)
      (requestOf scan target md task seedUrls) = .ok request)
    (hattempt : attempt (recorded x) request ((env.newIds s₁).2, []) =
      (.ok observations, s₂, record)) :
    recordedRun env scan target x task seedUrls covered s o =
      (.ok (observations, covered.markAll observations), s₂, record) := by
  have hmd : (recorded x).metadata (s, []) = (.ok md, s₁, []) := Effect.beside_of_eq hmetadata _
  refine (Effect.bind_of_ok hmd _).trans ?_
  refine (Effect.bind_of_ok (Effect.total_apply _ _) _).trans ?_
  refine (Effect.bind_of_ok (Effect.ofExcept_of_ok hrequest _) _).trans ?_
  exact Effect.bind_of_ok hattempt _

theorem record_of_unprepared
    (h : ∀ request s₁ run s₂, Asked env scan target x task seedUrls s request s₁ →
      x.prepareTarget request s₁ ≠ (.ok run, s₂)) :
    (recordedRun env scan target x task seedUrls covered s o).2.2 = [] := by
  rcases hmetadata : x.metadata s with ⟨result, s₁⟩
  have hmd : (recorded x).metadata (s, []) = (result, s₁, []) := Effect.beside_of_eq hmetadata _
  cases result with
  | error e =>
      have hrun : recordedRun env scan target x task seedUrls covered s o = (.error e, s₁, []) :=
        Effect.bind_of_error hmd _
      rw [hrun]
  | ok md =>
      cases hrequest : EngineRunRequest.modelValidate ((env.newIds s₁).1 0)
          (requestOf scan target md task seedUrls) with
      | error e =>
          have hrun : recordedRun env scan target x task seedUrls covered s o =
              (.error e, (env.newIds s₁).2, []) := by
            refine (Effect.bind_of_ok hmd _).trans ?_
            refine (Effect.bind_of_ok (Effect.total_apply _ _) _).trans ?_
            refine Effect.bind_of_error ?_ _
            rw [Effect.ofExcept_apply]
            exact congrArg (·, (env.newIds s₁).2, []) hrequest
          rw [hrun]
      | ok request =>
          have hunprepared : ∃ s', attempt (recorded x) request ((env.newIds s₁).2, []) =
              (.ok [], s', []) :=
            attempt_of_unprepared fun health s₂ run s₃ hhealth havailable ↦
              h request s₂ run s₃ ⟨md, s₁, health, hmetadata, hrequest, hhealth, havailable⟩
          obtain ⟨s', hattempt⟩ := hunprepared
          rw [recordedRun_of_attempt hmetadata hrequest hattempt]

/-- A prepared run is cleaned up once, and what was normalized is returned. -/
structure CleansUp (run : Except PyError (List Observation × RequestKnowledgeBase) ×
    σ × List (EngineEvent x)) : Prop where
  once : ∀ p, .prepared p ∈ run.2.2 → cleanups run.2.2 = [p]
  kept : ∀ observations, .normalized observations ∈ run.2.2 →
    ∃ covered, run.1 = .ok (observations, covered)

theorem cleansUp_of_all (run : x.Prepared) (observations : List Observation)
    (covered : RequestKnowledgeBase) (s : σ) : CleansUp (.ok (observations, covered), s,
      [.prepared run, .normalized observations, .cleanup run]) where
  once p hp := by
    obtain rfl : p = run := by simpa using hp
    rfl
  kept obs hobs := by
    obtain rfl : obs = observations := by simpa using hobs
    exact ⟨covered, rfl⟩

/-- From the work on nothing raises, except for the cleanup of a run without observations. -/
def Finishes (x : EngineAdapter σ) (request : EngineRunRequest) (run : x.Prepared) (s : σ) : Prop :=
  ∃ observations s₁, work x request run s = (.ok observations, s₁) ∧
    (observations = [] ∨ ∃ s₂, x.cleanup run s₁ = (.ok (), s₂))

/-- What is recorded of a prepared run. -/
theorem recordedRun_of_prepared (hasked : Asked env scan target x task seedUrls s request s₁)
    (hprepared : x.prepareTarget request s₁ = (.ok run, s₂)) :
    CleansUp (recordedRun env scan target x task seedUrls covered s o) ↔
      Finishes x request run s₂ := by
  obtain ⟨md, s₀, health, hmetadata, hrequest, hhealth, havailable⟩ := hasked
  have hattempt := attempt_of_prepared hhealth havailable hprepared
  rcases hwork : work x request run s₂ with ⟨result, s₃⟩
  cases result with
  | error e =>
      have hend : attempt (recorded x) request ((env.newIds s₀).2, []) =
          (.ok [], s₃, [.prepared run]) :=
        hattempt.trans (Effect.recover_of_error (finish_of_work_error hwork) _)
      rw [recordedRun_of_attempt hmetadata hrequest hend]
      refine ⟨fun h ↦ ?_, ?_⟩
      · exact absurd (h.once run (List.mem_singleton_self _)) (by simp [cleanups])
      · rintro ⟨observations, s₄, hfinished, -⟩
        rw [hwork] at hfinished
        exact absurd (congrArg Prod.fst hfinished) (by simp)
  | ok observations =>
      rcases hcleanup : x.cleanup run s₃ with ⟨result, s₄⟩
      have hfinish : finish (recorded x) request run (s₂, [.prepared run]) =
          (result.map fun _ ↦ observations, s₄,
            [.prepared run, .normalized observations, .cleanup run]) :=
        finish_of_work_ok hwork hcleanup
      cases result with
      | ok u =>
          have hend : attempt (recorded x) request ((env.newIds s₀).2, []) = (.ok observations, s₄,
              [.prepared run, .normalized observations, .cleanup run]) :=
            hattempt.trans (Effect.recover_of_ok hfinish _)
          rw [recordedRun_of_attempt hmetadata hrequest hend]
          exact iff_of_true (cleansUp_of_all run observations _ s₄)
            ⟨observations, s₃, hwork, Or.inr ⟨s₄, hcleanup⟩⟩
      | error e =>
          have hend : attempt (recorded x) request ((env.newIds s₀).2, []) = (.ok [], s₄,
              [.prepared run, .normalized observations, .cleanup run]) :=
            hattempt.trans (Effect.recover_of_error hfinish _)
          rw [recordedRun_of_attempt hmetadata hrequest hend]
          constructor
          · intro h
            obtain ⟨covered', hkept⟩ := h.kept observations (by simp)
            have hnone : observations = [] := (congrArg Prod.fst (Except.ok.inj hkept)).symm
            exact ⟨observations, s₃, hwork, Or.inl hnone⟩
          · rintro ⟨obs, s₅, hdone, hclosed⟩
            obtain ⟨rfl, rfl⟩ := Effect.ok_unique hdone hwork
            rcases hclosed with rfl | ⟨s₆, hclean⟩
            · exact cleansUp_of_all run [] _ s₄
            · rw [hclean] at hcleanup
              exact absurd (congrArg Prod.fst hcleanup) (by simp)

/-- Every prepared run of the adapter finishes. -/
def Orderly (env : Environment σ) (scan : Scan) (target : Target) (x : EngineAdapter σ)
    (task : PlannedTask) (seedUrls : List String) (s : σ) : Prop :=
  ∀ request s₁ run s₂, Asked env scan target x task seedUrls s request s₁ →
    x.prepareTarget request s₁ = (.ok run, s₂) → Finishes x request run s₂

/-- An engine is cleaned up after, and its observations are kept, just when nothing raises
between its preparation and the end of its cleanup. -/
theorem cleansUp_iff (env : Environment σ) (scan : Scan) (target : Target) (x : EngineAdapter σ)
    (task : PlannedTask) (seedUrls : List String) (covered : RequestKnowledgeBase) (s : σ)
    (o : Orchestrator (σ × List (EngineEvent x))) :
    CleansUp (recordedRun env scan target x task seedUrls covered s o) ↔
      Orderly env scan target x task seedUrls s := by
  constructor
  · intro h request s₁ run s₂ hasked hprepared
    exact (recordedRun_of_prepared hasked hprepared).mp h
  · intro h
    by_cases hsome : ∃ request s₁ run s₂, Asked env scan target x task seedUrls s request s₁ ∧
        x.prepareTarget request s₁ = (.ok run, s₂)
    · obtain ⟨request, s₁, run, s₂, hasked, hprepared⟩ := hsome
      exact (recordedRun_of_prepared hasked hprepared).mpr (h request s₁ run s₂ hasked hprepared)
    · have hempty : (recordedRun env scan target x task seedUrls covered s o).2.2 = [] :=
        record_of_unprepared fun request s₁ run s₂ hasked hprepared ↦
          hsome ⟨request, s₁, run, s₂, hasked, hprepared⟩
      exact ⟨fun p hp ↦ absurd (hempty ▸ hp) List.not_mem_nil,
        fun obs hobs ↦ absurd (hempty ▸ hobs) List.not_mem_nil⟩

end Law

/-! ## An engine that fails in its scan -/

def crashing : EngineAdapter Unit :=
  { reporting .healthy [] with executeScan := fun _ ↦ Effect.raise (.other "connection lost") }

def recordingOrchestrator : Orchestrator (Unit × List (EngineEvent crashing)) where
  env := (demoEnvironment .null).beside _
  registry := ⟨demoPolicy, .empty⟩
  risk _ := 25

theorem demoRequest_ok : ∃ request, EngineRunRequest.modelValidate "f"
    (requestOf demoScan demoTarget demoMetadata demoTask demoTask.seedUrls) = .ok request :=
  ⟨_, dif_pos ⟨demoEngineId_ok, List.cons_ne_nil _ _, List.cons_ne_nil _ _, demoRate_ok.1,
    demoConcurrency_ok.1⟩⟩

theorem not_cleansUp_crashing : ¬ CleansUp (recordedRun (demoEnvironment .null) demoScan demoTarget
    crashing demoTask demoTask.seedUrls .empty () recordingOrchestrator) := by
  obtain ⟨request, hrequest⟩ := demoRequest_ok
  have hasked : Asked (demoEnvironment .null) demoScan demoTarget crashing demoTask
      demoTask.seedUrls () request () :=
    ⟨demoMetadata, (), .healthy, rfl, hrequest, rfl, by decide⟩
  have hwork : work crashing request () () = (.error (.other "connection lost"), ()) := rfl
  intro h
  obtain ⟨observations, s₁, hfinished, -⟩ := (recordedRun_of_prepared hasked rfl).mp h
  rw [hwork] at hfinished
  exact absurd (congrArg Prod.fst hfinished) (by simp)

end Vantage.Scan
