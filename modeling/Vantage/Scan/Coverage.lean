import Vantage.Scan.EngineLoop

/-!
# What a report says of its engines

A failure inside the lifecycle of an engine leaves an empty list, which the
loop cannot tell from a run without results.
-/

namespace Vantage.Scan

open Scope Engines Findings Persistence

variable {σ : Type} {o : Orchestrator σ} {scan : Scan} {target : Target} {p p' : Platform σ}
  {scope : ScopeEngine} {tasks : List (StageKind × PlannedTask)} {progress progress' : Progress}
  {s s' : σ} {runs : List TaskRun} {report : ScanReport}

/-- The engine runs of a run of the orchestrator. -/
inductive Executes (o : Orchestrator σ) (scan : Scan) (target : Target) (p : Platform σ) :
    List TaskRun → Prop
  | refused (hauthorized : target.isAuthorized (o.env.clock p.world).1 = false) :
      Executes o scan target p []
  | conducted {scan₁ : Scan} {scope : ScopeEngine} {plan : ScanPlan} {p₁ : Platform σ}
      {runs : List TaskRun} {progress : Progress} {w : σ}
      (hauthorized : target.isAuthorized (o.env.clock p.world).1 = true)
      (hplan : o.planStage scan target { p with world := (o.env.clock p.world).2 } =
        (.ok (scan₁, scope, plan), p₁))
      (hloops : Loops o scan₁ target scope plan.tasks {} p₁.world runs progress w) :
      Executes o scan target p runs

/-- An engine failed on a task: it has no usable adapter, is unavailable, or raised. -/
inductive TaskOutcome.Failed : TaskOutcome → Prop
  | unbound : Failed .unbound
  | unavailable : Failed .unavailable
  | raised : Failed .raised

/-- The whole lifecycle was completed. -/
def TaskOutcome.Completed (outcome : TaskOutcome) : Prop :=
  ∃ observations, outcome = .completed observations

/-- The report names as failed the engines that failed on a task, and as run
only engines that completed one. -/
structure Truthful (report : ScanReport) (runs : List TaskRun) : Prop where
  failed : ∀ i, i ∈ report.enginesFailed ↔ ∃ r ∈ runs, r.task.engineId = i ∧ r.outcome.Failed
  run : ∀ i ∈ report.enginesRun, ∃ r ∈ runs, r.task.engineId = i ∧ r.outcome.Completed

/-- No engine with an adapter failed on a task, and one whose health check
raised completed another task. -/
structure NothingHidden (runs : List TaskRun) : Prop where
  failed : ∀ r ∈ runs, r.outcome.Failed → r.outcome = .unbound
  unhealthy : ∀ r ∈ runs, r.outcome = .unhealthy →
    ∃ r' ∈ runs, r'.task.engineId = r.task.engineId ∧ r'.outcome.Completed

/-! ## The lists of a report -/

/-- What is in the report of an authorized run. -/
theorem conduct_ok (h : o.conduct scan target p = (.ok report, p')) :
    ∃ scan₁ scope plan p₁ runs progress w,
      o.planStage scan target p = (.ok (scan₁, scope, plan), p₁) ∧
      Loops o scan₁ target scope plan.tasks {} p₁.world runs progress w ∧
      report.enginesFailed = progress.enginesFailed ∧ report.enginesRun = progress.enginesRun := by
  obtain ⟨⟨scan₁, scope, plan⟩, p₁, hplan, h⟩ := Effect.exists_of_bind_ok h
  obtain ⟨⟨scan₂, progress⟩, p₂, hengine, h⟩ := Effect.exists_of_bind_ok h
  obtain ⟨⟨scan₃, findings⟩, p₃, -, h⟩ := Effect.exists_of_bind_ok h
  obtain ⟨⟨scan₄, findings', ai⟩, p₄, -, h⟩ := Effect.exists_of_bind_ok h
  obtain ⟨rfl, rfl⟩ := Effect.eq_of_pure h
  obtain ⟨progress', p₅, hloop, hengine⟩ := Effect.exists_of_bind_ok hengine
  obtain ⟨-, p₆, -, hengine⟩ := Effect.exists_of_bind_ok hengine
  obtain ⟨scan₅, p₇, -, hengine⟩ := Effect.exists_of_bind_ok hengine
  obtain ⟨⟨⟩, rfl⟩ := Effect.eq_of_pure hengine
  rw [outside, Prod.mk.injEq] at hloop
  obtain ⟨runs, hloops⟩ := engineLoop_ok_iff.mp (Prod.ext hloop.1 rfl)
  exact ⟨scan₁, scope, plan, p₁, runs, progress, _, hplan, hloops, rfl, rfl⟩

/-- The report of a target without authorization names no engines. -/
theorem refuse_ok (h : o.refuse scan p = (.ok report, p')) :
    report.enginesFailed = [] ∧ report.enginesRun = [] := by
  obtain ⟨scan₁, p₁, -, h⟩ := Effect.exists_of_bind_ok h
  obtain ⟨scan₂, p₂, -, h⟩ := Effect.exists_of_bind_ok h
  obtain ⟨scan₃, p₃, -, h⟩ := Effect.exists_of_bind_ok h
  obtain ⟨rfl, rfl⟩ := Effect.eq_of_pure h
  exact ⟨rfl, rfl⟩

/-- What the lists of a report are, in terms of the engine runs. -/
structure Accounts (o : Orchestrator σ) (report : ScanReport) (runs : List TaskRun) : Prop where
  failed : ∀ i, i ∈ report.enginesFailed ↔ ∃ r ∈ runs, r.task.engineId = i ∧ r.outcome = .unbound
  run : ∀ i, i ∈ report.enginesRun ↔ ∃ r ∈ runs, r.task.engineId = i ∧ r.outcome ≠ .unbound
  unbound : ∀ r ∈ runs, r.outcome = .unbound ↔ o.registry.adapterFor r.task.engineId = none

theorem accounts_of_loops {w : σ} (hloops : Loops o scan target scope tasks {} s runs progress w)
    (hfailed : report.enginesFailed = progress.enginesFailed)
    (hrun : report.enginesRun = progress.enginesRun) : Accounts o report runs where
  failed i := by
    rw [hfailed, hloops.mem_enginesFailed]
    simp
  run i := by
    rw [hrun, hloops.mem_enginesRun]
    simp
  unbound := hloops.unbound_iff

theorem exists_executes (h : o.run scan target p = (.ok report, p')) :
    ∃ runs, Executes o scan target p runs := by
  rw [run_eq] at h
  cases hauthorized : target.isAuthorized (o.env.clock p.world).1 with
  | true =>
      rw [hauthorized, if_pos rfl] at h
      obtain ⟨scan₁, scope, plan, p₁, runs, progress, w, hplan, hloops, -⟩ := conduct_ok h
      exact ⟨runs, .conducted hauthorized hplan hloops⟩
  | false => exact ⟨[], .refused hauthorized⟩

theorem accounts_of_executes (h : o.run scan target p = (.ok report, p'))
    (hruns : Executes o scan target p runs) : Accounts o report runs := by
  rw [run_eq] at h
  cases hruns with
  | refused hauthorized =>
      rw [hauthorized, if_neg (by simp)] at h
      obtain ⟨hfailed, hrun⟩ := refuse_ok h
      exact ⟨by simp [hfailed], by simp [hrun], by simp⟩
  | conducted hauthorized hplan hloops =>
      rw [hauthorized, if_pos rfl] at h
      obtain ⟨scan₂, scope', plan', p₂, runs', progress', w', hplan', hloops', hfailed, hrun⟩ :=
        conduct_ok h
      obtain ⟨⟨⟩, rfl⟩ := Effect.ok_unique hplan hplan'
      obtain ⟨rfl, -⟩ := Effect.ok_unique (foldl_of_loops hloops) (foldl_of_loops hloops')
      exact accounts_of_loops hloops hfailed hrun

theorem Executes.ends (hruns : Executes o scan target p runs) :
    ∀ r ∈ runs, r.outcome ≠ .unbound → ∃ x request s₁ s₂,
      o.registry.adapterFor r.task.engineId = some x ∧ Ends x request s₁ r.outcome s₂ := by
  cases hruns with
  | refused => simp
  | conducted hauthorized hplan hloops => exact hloops.ends

/-! ## The law -/

/-- Every task that had an adapter ended in one of four ways. -/
theorem failed_or_completed (outcome : TaskOutcome) (hunbound : outcome ≠ .unbound)
    (hfailed : ¬ outcome.Failed) : outcome = .unhealthy ∨ outcome.Completed := by
  cases outcome with
  | unbound => exact absurd rfl hunbound
  | unavailable => exact absurd .unavailable hfailed
  | unhealthy => exact Or.inl rfl
  | raised => exact absurd .raised hfailed
  | completed observations => exact Or.inr ⟨observations, rfl⟩

theorem truthful_iff_of_accounts (h : Accounts o report runs) :
    Truthful report runs ↔ NothingHidden runs := by
  constructor
  · rintro ⟨hfailed, hrun⟩
    refine ⟨fun r hr hfail ↦ ?_, fun r hr hunhealthy ↦ ?_⟩
    · obtain ⟨r', hr', hid, hunbound⟩ :=
        (h.failed r.task.engineId).mp ((hfailed _).mpr ⟨r, hr, rfl, hfail⟩)
      rw [h.unbound r hr, ← hid]
      exact (h.unbound r' hr').mp hunbound
    · exact hrun _ ((h.run _).mpr ⟨r, hr, rfl, by simp [hunhealthy]⟩)
  · rintro ⟨hfailed, hunhealthy⟩
    refine ⟨fun i ↦ ?_, fun i hi ↦ ?_⟩
    · rw [h.failed]
      constructor
      · rintro ⟨r, hr, hid, hunbound⟩
        exact ⟨r, hr, hid, hunbound ▸ .unbound⟩
      · rintro ⟨r, hr, hid, hfail⟩
        exact ⟨r, hr, hid, hfailed r hr hfail⟩
    · obtain ⟨r, hr, rfl, hbound⟩ := (h.run i).mp hi
      rcases failed_or_completed r.outcome hbound fun hfail ↦ hbound (hfailed r hr hfail) with
        hraised | hcompleted
      · exact hunhealthy r hr hraised
      · exact ⟨r, hr, rfl, hcompleted⟩

/-- A report tells the truth about its engines exactly when no engine failed
behind an adapter. -/
theorem truthful_iff (h : o.run scan target p = (.ok report, p')) :
    (∃ runs, Executes o scan target p runs) ∧
      ∀ runs, Executes o scan target p runs → (Truthful report runs ↔ NothingHidden runs) :=
  ⟨exists_executes h, fun _ hruns ↦ truthful_iff_of_accounts (accounts_of_executes h hruns)⟩

/-! ## An engine that is unavailable -/

theorem demo_returns (health : HealthState) : ∃ report p',
    (demoOrchestrator .null (reporting health [])).run demoScan demoTarget demoPlatform =
        (.ok report, p') ∧ report.enginesRun = ["zap"] ∧ report.enginesFailed = [] := by
  have hlists : ((demoOrchestrator .null (reporting health [])).run demoScan demoTarget
      demoPlatform).1.map (fun report ↦ (report.enginesRun, report.enginesFailed)) =
        .ok (["zap"], []) := by
    cases health <;> decide +kernel
  rcases hrun : (demoOrchestrator .null (reporting health [])).run demoScan demoTarget
    demoPlatform with ⟨result, p'⟩
  rw [hrun] at hlists
  cases result with
  | error e => exact absurd hlists (by simp [Except.map])
  | ok report =>
      have hboth := Prod.mk.inj (Except.ok.inj hlists)
      exact ⟨report, p', rfl, hboth⟩

theorem truthful_iff_demo : ∃ report p',
    (demoOrchestrator .null (reporting .healthy [])).run demoScan demoTarget demoPlatform =
        (.ok report, p') ∧
      (∃ runs, Executes (demoOrchestrator .null (reporting .healthy [])) demoScan demoTarget
        demoPlatform runs) ∧
      ∀ runs, Executes (demoOrchestrator .null (reporting .healthy [])) demoScan demoTarget
        demoPlatform runs → (Truthful report runs ↔ NothingHidden runs) := by
  obtain ⟨report, p', hrun, -⟩ := demo_returns .healthy
  exact ⟨report, p', hrun, truthful_iff hrun⟩

theorem ends_unavailable {request : EngineRunRequest} {s s' : Unit} {outcome : TaskOutcome}
    (h : Ends (reporting .unavailable []) request s outcome s') : outcome = .unavailable := by
  cases h with
  | unavailable => rfl
  | unhealthy hhealth => exact absurd (congrArg Prod.fst hhealth) (by simp [reporting])
  | raised hhealth havailable =>
      exact absurd (Except.ok.inj (congrArg Prod.fst hhealth)).symm havailable
  | completed hhealth havailable =>
      exact absurd (Except.ok.inj (congrArg Prod.fst hhealth)).symm havailable

/-- The engine is reported as run and not as failed. -/
theorem not_truthful_unavailable : ∃ report p' runs,
    (demoOrchestrator .null (reporting .unavailable [])).run demoScan demoTarget demoPlatform =
        (.ok report, p') ∧
      Executes (demoOrchestrator .null (reporting .unavailable [])) demoScan demoTarget demoPlatform
        runs ∧ ¬ Truthful report runs := by
  obtain ⟨report, p', hrun, henginesRun, -⟩ := demo_returns .unavailable
  obtain ⟨runs, hruns⟩ := exists_executes hrun
  refine ⟨report, p', runs, hrun, hruns, fun htruthful ↦ ?_⟩
  obtain ⟨r, hr, hid, observations, hcompleted⟩ := htruthful.run "zap" (by simp [henginesRun])
  obtain ⟨x, request, s₁, s₂, hadapter, hends⟩ := hruns.ends r hr (by simp [hcompleted])
  rw [hid] at hadapter
  obtain rfl : reporting .unavailable [] = x := Option.some.inj hadapter
  rw [ends_unavailable hends] at hcompleted
  exact TaskOutcome.noConfusion hcompleted

end Vantage.Scan
