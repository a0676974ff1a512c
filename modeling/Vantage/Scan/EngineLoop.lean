import Vantage.Engines.LicenseGate
import Vantage.Scan.Orchestrator

/-!
# Runs of the engine loop

A run of the loop is told task by task: how the engine of each task ended, and
that the unguarded calls around it returned.
-/

namespace Vantage.Scan

open Scope Engines Findings Persistence

variable {σ : Type}

/-- How a task ends. -/
inductive TaskOutcome where
  /-- No usable adapter is bound. -/
  | unbound
  | unavailable
  /-- The health check raised. -/
  | unhealthy
  /-- Preparation, execution, collection, normalization or cleanup raised. -/
  | raised
  | completed (observations : List Observation)

/-- What the guarded part returns. -/
def TaskOutcome.observations : TaskOutcome → List Observation
  | .completed observations => observations
  | _ => []

structure TaskRun where
  task : PlannedTask
  seedUrls : List String
  outcome : TaskOutcome

/-- The end of an engine run from a state. -/
inductive Ends (x : EngineAdapter σ) (request : EngineRunRequest) (s : σ) : TaskOutcome → σ → Prop
  | unavailable {s' : σ} (hhealth : x.healthCheck s = (.ok .unavailable, s')) :
      Ends x request s .unavailable s'
  | unhealthy {e : PyError} {s' : σ} (hhealth : x.healthCheck s = (.error e, s')) :
      Ends x request s .unhealthy s'
  | raised {health : HealthState} {e : PyError} {s₁ s' : σ}
      (hhealth : x.healthCheck s = (.ok health, s₁)) (havailable : health ≠ .unavailable)
      (hlifecycle : x.lifecycle request s₁ = (.error e, s')) : Ends x request s .raised s'
  | completed {health : HealthState} {observations : List Observation} {s₁ s' : σ}
      (hhealth : x.healthCheck s = (.ok health, s₁)) (havailable : health ≠ .unavailable)
      (hlifecycle : x.lifecycle request s₁ = (.ok observations, s')) :
      Ends x request s (.completed observations) s'

variable {x : EngineAdapter σ} {request : EngineRunRequest} {s s' : σ} {outcome : TaskOutcome}

theorem Ends.ne_unbound (h : Ends x request s outcome s') : outcome ≠ .unbound := by
  cases h <;> exact TaskOutcome.noConfusion

theorem attempt_of_available {health : HealthState} {s₁ : σ}
    (hhealth : x.healthCheck s = (.ok health, s₁)) (havailable : health ≠ .unavailable) :
    attempt x request s = (x.lifecycle request).recover (fun _ ↦ pure []) s₁ := by
  have hbody : (do
      let health ← x.healthCheck
      if health = .unavailable then pure [] else x.lifecycle request : Effect PyError σ _) s =
        x.lifecycle request s₁ := by
    refine (Effect.bind_of_ok hhealth _).trans ?_
    rw [if_neg havailable]
  unfold attempt Effect.recover
  rw [hbody]

theorem attempt_of_ends (h : Ends x request s outcome s') :
    attempt x request s = (.ok outcome.observations, s') := by
  cases h with
  | unavailable hhealth => exact Effect.recover_of_ok (Effect.bind_of_ok hhealth _) _
  | unhealthy hhealth => exact Effect.recover_of_error (Effect.bind_of_error hhealth _) _
  | raised hhealth havailable hlifecycle =>
      rw [attempt_of_available hhealth havailable]
      exact Effect.recover_of_error hlifecycle _
  | completed hhealth havailable hlifecycle =>
      rw [attempt_of_available hhealth havailable]
      exact Effect.recover_of_ok hlifecycle _

theorem exists_ends (x : EngineAdapter σ) (request : EngineRunRequest) (s : σ) :
    ∃ outcome s', Ends x request s outcome s' := by
  rcases hhealth : x.healthCheck s with ⟨health, s₁⟩
  cases health with
  | error e => exact ⟨_, _, .unhealthy hhealth⟩
  | ok health =>
      by_cases havailable : health = .unavailable
      · exact ⟨_, _, .unavailable (havailable ▸ hhealth)⟩
      · rcases hlifecycle : x.lifecycle request s₁ with ⟨result, s'⟩
        cases result with
        | error e => exact ⟨_, _, .raised hhealth havailable hlifecycle⟩
        | ok observations => exact ⟨_, _, .completed hhealth havailable hlifecycle⟩

/-! ## Runs -/

variable (o : Orchestrator σ) (scan : Scan) (target : Target) (scope : ScopeEngine)

/-- The URLs that are discovered when an engine has run. -/
def Discovers (progress : Progress) (observations : List Observation) (discovered : List String) :
    Prop :=
  collectDiscovered (fun url ↦ scope.verdict o.env.regex url none) maxDiscovered
    (evidenceUrls observations) progress.discovered = .ok discovered

/-- A complete run of the loop over some tasks, with what became of each. -/
inductive Loops : List (StageKind × PlannedTask) → Progress → σ → List TaskRun → Progress → σ → Prop
  | nil (progress : Progress) (s : σ) : Loops [] progress s [] progress s
  | unbound {stage : StageKind} {task : PlannedTask} {tasks : List (StageKind × PlannedTask)}
      {progress progress' : Progress} {s s' : σ} {runs : List TaskRun}
      (hadapter : o.registry.adapterFor task.engineId = none)
      (hrest : Loops tasks
        { progress with enginesFailed := progress.enginesFailed ++ [task.engineId] }
        s runs progress' s') :
      Loops ((stage, task) :: tasks) progress s (⟨task, [], .unbound⟩ :: runs) progress' s'
  | bound {stage : StageKind} {task : PlannedTask} {tasks : List (StageKind × PlannedTask)}
      {progress progress' : Progress} {s s₁ s₂ s' : σ} {runs : List TaskRun}
      {x : EngineAdapter σ} {md : EngineMetadata} {request : EngineRunRequest}
      {outcome : TaskOutcome} {discovered : List String}
      (hadapter : o.registry.adapterFor task.engineId = some x)
      (hmetadata : x.metadata s = (.ok md, s₁))
      (hrequest : EngineRunRequest.modelValidate ((o.env.newIds s₁).1 0)
        (requestOf scan target md task (seedsOf stage task progress.discovered)) = .ok request)
      (hends : Ends x request (o.env.newIds s₁).2 outcome s₂)
      (hdiscovers : Discovers o scope progress outcome.observations discovered)
      (hrest : Loops tasks
        { observations := progress.observations ++ outcome.observations
          enginesRun := progress.enginesRun ++ [task.engineId]
          enginesFailed := progress.enginesFailed
          discovered := discovered
          covered := progress.covered.markAll outcome.observations } s₂ runs progress' s') :
      Loops ((stage, task) :: tasks) progress s
        (⟨task, seedsOf stage task progress.discovered, outcome⟩ :: runs) progress' s'

variable {o scan target scope} {tasks : List (StageKind × PlannedTask)}
  {progress progress' : Progress} {runs : List TaskRun} {stage : StageKind} {task : PlannedTask}

theorem runTask_of_unbound (hadapter : o.registry.adapterFor task.engineId = none) (s : σ) :
    o.runTask scan target scope progress (stage, task) s =
      (.ok { progress with enginesFailed := progress.enginesFailed ++ [task.engineId] }, s) := by
  unfold Orchestrator.runTask
  rw [hadapter]
  rfl

theorem runTask_of_bound {s₁ s₂ : σ} {md : EngineMetadata} {discovered : List String}
    (hadapter : o.registry.adapterFor task.engineId = some x)
    (hmetadata : x.metadata s = (.ok md, s₁))
    (hrequest : EngineRunRequest.modelValidate ((o.env.newIds s₁).1 0)
      (requestOf scan target md task (seedsOf stage task progress.discovered)) = .ok request)
    (hends : Ends x request (o.env.newIds s₁).2 outcome s₂)
    (hdiscovers : Discovers o scope progress outcome.observations discovered) :
    o.runTask scan target scope progress (stage, task) s =
      (.ok { observations := progress.observations ++ outcome.observations
             enginesRun := progress.enginesRun ++ [task.engineId]
             enginesFailed := progress.enginesFailed
             discovered := discovered
             covered := progress.covered.markAll outcome.observations }, s₂) := by
  have hengine : o.runEngine scan target x task (seedsOf stage task progress.discovered)
      progress.covered s =
        (.ok (outcome.observations, progress.covered.markAll outcome.observations), s₂) := by
    refine (Effect.bind_of_ok hmetadata _).trans ?_
    refine (Effect.bind_of_ok (Effect.total_apply o.env.newIds s₁) _).trans ?_
    refine (Effect.bind_of_ok (Effect.ofExcept_of_ok hrequest _) _).trans ?_
    exact (Effect.bind_of_ok (attempt_of_ends hends) _).trans rfl
  unfold Orchestrator.runTask
  rw [hadapter]
  refine (Effect.bind_of_ok hengine _).trans ?_
  exact (Effect.bind_of_ok (Effect.ofExcept_of_ok hdiscovers _) _).trans rfl

/-- A round that returns is one of the two that are told. -/
theorem runTask_cases
    (h : o.runTask scan target scope progress (stage, task) s = (.ok progress', s')) :
    (o.registry.adapterFor task.engineId = none ∧ s' = s ∧
        progress' = { progress with enginesFailed := progress.enginesFailed ++ [task.engineId] }) ∨
      ∃ x md request outcome discovered s₁, o.registry.adapterFor task.engineId = some x ∧
        x.metadata s = (.ok md, s₁) ∧
        EngineRunRequest.modelValidate ((o.env.newIds s₁).1 0)
          (requestOf scan target md task (seedsOf stage task progress.discovered)) = .ok request ∧
        Ends x request (o.env.newIds s₁).2 outcome s' ∧
        Discovers o scope progress outcome.observations discovered ∧
        progress' =
          { observations := progress.observations ++ outcome.observations
            enginesRun := progress.enginesRun ++ [task.engineId]
            enginesFailed := progress.enginesFailed
            discovered := discovered
            covered := progress.covered.markAll outcome.observations } := by
  cases hadapter : o.registry.adapterFor task.engineId with
  | none =>
      rw [runTask_of_unbound hadapter, Prod.mk.injEq, Except.ok.injEq] at h
      exact Or.inl ⟨rfl, h.2.symm, h.1.symm⟩
  | some x =>
      unfold Orchestrator.runTask at h
      rw [hadapter] at h
      obtain ⟨⟨observations, covered⟩, s₂, hengine, h⟩ := Effect.exists_of_bind_ok h
      obtain ⟨discovered, s₃, hdiscovers, h⟩ := Effect.exists_of_bind_ok h
      obtain ⟨md, s₁, hmetadata, hengine⟩ := Effect.exists_of_bind_ok hengine
      obtain ⟨request, s₄, hrequest, hengine⟩ := Effect.exists_of_bind_ok
        ((Effect.bind_of_ok (Effect.total_apply o.env.newIds s₁) _).symm.trans hengine)
      obtain ⟨outcome, s₅, hends⟩ := exists_ends x request s₄
      have hattempt := (Effect.bind_of_ok (attempt_of_ends hends) _).symm.trans hengine
      rw [Effect.pure_apply, Prod.mk.injEq, Except.ok.injEq] at hattempt h
      rw [Prod.mk.injEq] at hattempt
      rw [Effect.ofExcept_apply, Prod.mk.injEq] at hrequest hdiscovers
      obtain ⟨⟨rfl, rfl⟩, rfl⟩ := hattempt
      obtain ⟨hdiscovers, rfl⟩ := hdiscovers
      obtain ⟨hrequest, rfl⟩ := hrequest
      obtain ⟨rfl, rfl⟩ := h
      exact Or.inr ⟨x, md, request, outcome, discovered, s₁, rfl, hmetadata, hrequest, hends,
        hdiscovers, rfl⟩

/-- The loop returns what the run that is told ends with. -/
theorem foldl_of_loops (h : Loops o scan target scope tasks progress s runs progress' s') :
    Effect.foldl (o.runTask scan target scope) progress tasks s = (.ok progress', s') := by
  induction h with
  | nil progress s => rfl
  | unbound hadapter _ ih =>
      exact (Effect.bind_of_ok (runTask_of_unbound hadapter _) _).trans ih
  | bound hadapter hmetadata hrequest hends hdiscovers _ ih =>
      exact (Effect.bind_of_ok
        (runTask_of_bound hadapter hmetadata hrequest hends hdiscovers) _).trans ih

/-- A loop that returns can be told. -/
theorem exists_loops
    (h : Effect.foldl (o.runTask scan target scope) progress tasks s = (.ok progress', s')) :
    ∃ runs, Loops o scan target scope tasks progress s runs progress' s' := by
  induction tasks generalizing progress s with
  | nil =>
      rw [Effect.foldl, Effect.pure_apply, Prod.mk.injEq, Except.ok.injEq] at h
      obtain ⟨rfl, rfl⟩ := h
      exact ⟨[], .nil progress s⟩
  | cons entry tasks ih =>
      obtain ⟨stage, task⟩ := entry
      obtain ⟨progress₁, s₁, hround, hrest⟩ := Effect.exists_of_bind_ok h
      obtain ⟨runs, hloops⟩ := ih hrest
      rcases runTask_cases hround with ⟨hadapter, rfl, rfl⟩ |
        ⟨x, md, request, outcome, discovered, s₂, hadapter, hmetadata, hrequest, hends, hdiscovers,
          rfl⟩
      · exact ⟨_, .unbound hadapter hloops⟩
      · exact ⟨_, .bound hadapter hmetadata hrequest hends hdiscovers hloops⟩

theorem engineLoop_ok_iff :
    o.engineLoop scan target scope tasks s = (.ok progress', s') ↔
      ∃ runs, Loops o scan target scope tasks {} s runs progress' s' :=
  ⟨exists_loops, fun ⟨_, h⟩ ↦ foldl_of_loops h⟩

theorem run_eq (o : Orchestrator σ) (scan : Scan) (target : Target) (p : Platform σ) :
    o.run scan target p =
      (if target.isAuthorized (o.env.clock p.world).1 then o.conduct scan target
        else o.refuse scan) { p with world := (o.env.clock p.world).2 } :=
  Effect.bind_of_ok (outside_of_ok (Effect.total_apply o.env.clock p.world)) _

/-! ## Accounting -/

/-- Only what has no adapter is unbound. -/
theorem Loops.unbound_iff (h : Loops o scan target scope tasks progress s runs progress' s') :
    ∀ r ∈ runs, r.outcome = .unbound ↔ o.registry.adapterFor r.task.engineId = none := by
  induction h with
  | nil => simp
  | unbound hadapter _ ih => exact List.forall_mem_cons.mpr ⟨by simp [hadapter], ih⟩
  | bound hadapter _ _ hends _ _ ih =>
      exact List.forall_mem_cons.mpr ⟨by simp [hadapter, hends.ne_unbound], ih⟩

/-- Every other task is a run of the adapter of its engine on a request for its seeds. -/
theorem Loops.requests (h : Loops o scan target scope tasks progress s runs progress' s') :
    ∀ r ∈ runs, r.outcome ≠ .unbound → ∃ x md runId request s₁ s₂,
      o.registry.adapterFor r.task.engineId = some x ∧
        EngineRunRequest.modelValidate runId (requestOf scan target md r.task r.seedUrls) =
          .ok request ∧ Ends x request s₁ r.outcome s₂ := by
  induction h with
  | nil => simp
  | unbound hadapter _ ih => exact List.forall_mem_cons.mpr ⟨fun h ↦ absurd rfl h, ih⟩
  | bound hadapter _ hrequest hends _ _ ih =>
      exact List.forall_mem_cons.mpr
        ⟨fun _ ↦ ⟨_, _, _, _, _, _, hadapter, hrequest, hends⟩, ih⟩

theorem Loops.ends (h : Loops o scan target scope tasks progress s runs progress' s') :
    ∀ r ∈ runs, r.outcome ≠ .unbound → ∃ x request s₁ s₂,
      o.registry.adapterFor r.task.engineId = some x ∧ Ends x request s₁ r.outcome s₂ := by
  intro r hr hbound
  obtain ⟨x, _, _, request, s₁, s₂, hadapter, -, hends⟩ := h.requests r hr hbound
  exact ⟨x, request, s₁, s₂, hadapter, hends⟩

/-- What is gathered was reported in one of the runs. -/
theorem Loops.mem_observations
    (h : Loops o scan target scope tasks progress s runs progress' s') (obs : Observation) :
    obs ∈ progress'.observations ↔ obs ∈ progress.observations ∨
      ∃ r ∈ runs, obs ∈ r.outcome.observations := by
  induction h with
  | nil => simp
  | unbound hadapter _ ih =>
      rw [ih]
      simp [TaskOutcome.observations]
  | bound hadapter _ _ hends _ _ ih =>
      rw [ih]
      simp [or_assoc]

/-- The engines counted as failed are those without an adapter. -/
theorem Loops.mem_enginesFailed
    (h : Loops o scan target scope tasks progress s runs progress' s') (i : String) :
    i ∈ progress'.enginesFailed ↔ i ∈ progress.enginesFailed ∨
      ∃ r ∈ runs, r.task.engineId = i ∧ r.outcome = .unbound := by
  induction h with
  | nil => simp
  | unbound hadapter _ ih =>
      rw [ih]
      simp [eq_comm, or_assoc]
  | bound hadapter _ _ hends _ _ ih =>
      rw [ih]
      simp [hends.ne_unbound]

/-- The engines counted as run are those with an adapter. -/
theorem Loops.mem_enginesRun
    (h : Loops o scan target scope tasks progress s runs progress' s') (i : String) :
    i ∈ progress'.enginesRun ↔ i ∈ progress.enginesRun ∨
      ∃ r ∈ runs, r.task.engineId = i ∧ r.outcome ≠ .unbound := by
  induction h with
  | nil => simp
  | unbound hadapter _ ih =>
      rw [ih]
      simp
  | bound hadapter _ _ hends _ _ ih =>
      rw [ih]
      simp [hends.ne_unbound, eq_comm, or_assoc]

/-! ## A scan with one engine -/

def demoManifest : EngineManifest where
  id := "zap"
  name := "OWASP ZAP"
  vendor := "OWASP"
  license := "Apache-2.0"
  integration := .containerCli
  capabilities := [.auditPassive]
  capabilities_ne := List.cons_ne_nil _ _

def demoMetadata : EngineMetadata where
  id := "zap"
  name := "OWASP ZAP"
  version := "2.16.1"
  vendor := "OWASP"
  licenseSpdx := "Apache-2.0"
  licenseClass := .green
  approvalStatus := .approved
  integration := .containerCli
  capabilities := [.auditPassive]
  image := none
  homepage := none
  id_ok := demoEngineId_ok

/-- An engine that reports the same in each run. -/
def reporting (health : HealthState) (observations : List Observation) : EngineAdapter Unit where
  metadata := pure demoMetadata
  Prepared := Unit
  Outcome := Unit
  Raw := Unit
  healthCheck := pure health
  prepareTarget _ := pure ()
  executeScan _ := pure ()
  collectResults _ := pure ()
  normalizeResults _ _ := pure observations
  cleanup _ := pure ()

def demoRegistry (x : EngineAdapter Unit) : EngineRegistry Unit where
  policy := demoPolicy
  engines := Dict.empty.set "zap"
    { manifest := demoManifest
      lock := { version := "2.16.1", license := "Apache-2.0" }
      metadata := demoMetadata
      adapter := some x
      problems := []
      notes := [] }

def demoTask : PlannedTask where
  engineId := "zap"
  capabilities := [.auditPassive]
  seedUrls := ["https://app.example/"]
  reason := "selected zap for audit.passive"
  capabilities_ne := List.cons_ne_nil _ _

def demoPlan : ScanPlan := ⟨"", [⟨.audit, [demoTask]⟩], []⟩

theorem demoRate_ok : (0 : ℚ) < 10 ∧ (10 : ℚ) ≤ 1000 := by norm_num

theorem demoConcurrency_ok : 1 ≤ 4 ∧ 4 ≤ 256 := by decide

theorem demoVerifier_ne : "u" ≠ "" := by decide

theorem demoName_ok : 1 ≤ "app".length ∧ "app".length ≤ 200 := by decide

theorem demoBaseUrls_ne : ["https://app.example/"] ≠ [] := List.cons_ne_nil _ _

def demoTarget : Target where
  id := "g"
  tenantId := "t"
  name := "app"
  baseUrls := ["https://app.example/"]
  kind := .unknown
  scopeRules := [demoHost]
  rateLimits := ⟨10, 4, demoRate_ok, demoConcurrency_ok⟩
  authorization := some
    { method := .dnsTxt, verifiedAt := 0, verifiedBy := "u", verifiedBy_ne := demoVerifier_ne }
  createdAt := 0
  name_ok := demoName_ok
  baseUrls_ne := demoBaseUrls_ne

/-- The clock stands still, and all texts are read as the given value. -/
def demoEnvironment (reply : Json) : Environment Unit where
  clock s := (0, s)
  newIds s := (fun _ ↦ "f", s)
  regex _ := none
  loads _ := .ok reply
  digests := { demoDigests with sha256 := demoSha256 }
  evidenceVariable := none

def demoOrchestrator (reply : Json) (x : EngineAdapter Unit) : Orchestrator Unit where
  env := demoEnvironment reply
  registry := demoRegistry x
  plan _ _ _ := demoPlan
  risk _ := 25

def demoPlatform : Platform Unit := demoShared.platform

end Vantage.Scan
