import Vantage.Scan.Coverage

/-!
# The seeds of engines

A task starts from the base URLs, which the planner takes as they are, and in
an audit stage also from what was found before, which has to be in scope.
-/

namespace Vantage.Scan

open Scope Engines Findings Persistence Planner

/-! ## Discovered URLs -/

/-- What is remembered was known, or is reported and in scope. -/
theorem mem_collectDiscovered {allows : String → Except PyError Bool} {cap : ℕ}
    {urls found found' : List String} {u : String}
    (h : collectDiscovered allows cap urls found = .ok found') (hu : u ∈ found') :
    u ∈ found ∨ u ∈ urls ∧ allows u = .ok true := by
  induction urls generalizing found with
  | nil =>
      obtain rfl := Except.ok.inj h
      exact Or.inl hu
  | cons url urls ih =>
      have hlater : ∀ found : List String, u ∈ found ∨ u ∈ urls ∧ allows u = .ok true →
          u ∈ found ∨ u ∈ url :: urls ∧ allows u = .ok true := fun _ ↦
        Or.imp_right (And.imp_left (List.mem_cons_of_mem url))
      unfold collectDiscovered at h
      by_cases hknown : url ∈ found
      · rw [if_pos hknown] at h
        exact hlater found (ih h)
      · rw [if_neg hknown] at h
        obtain ⟨allowed, hurl, h⟩ := ExceptList.exists_of_bind_ok h
        cases allowed with
        | false => exact hlater found (ih h)
        | true =>
            have hadded : u ∈ found ++ [url] ∨ u ∈ url :: urls ∧ allows u = .ok true := by
              rw [if_pos rfl] at h
              split_ifs at h
              · obtain rfl := Except.ok.inj h
                exact Or.inl hu
              · exact hlater _ (ih h)
            refine hadded.elim (fun hmem ↦ ?_) Or.inr
            refine (List.mem_append.mp hmem).imp_right fun hmem ↦ ?_
            obtain rfl := List.mem_singleton.mp hmem
            exact ⟨List.mem_cons_self, hurl⟩

theorem mem_mergeSeeds {cap : ℕ} {u : String} {seeds urls : List String}
    (h : u ∈ mergeSeeds cap seeds urls) : u ∈ seeds ∨ u ∈ urls := by
  induction urls generalizing seeds with
  | nil => exact Or.inl h
  | cons url urls ih =>
      have hout : ∀ v ∈ (if url ∈ seeds then seeds else seeds ++ [url]),
          v ∈ seeds ∨ v ∈ url :: urls := by
        intro v hv
        split_ifs at hv
        · exact Or.inl hv
        · rcases List.mem_append.mp hv with hv | hv
          · exact Or.inl hv
          · exact Or.inr (List.mem_singleton.mp hv ▸ List.mem_cons_self)
      unfold mergeSeeds at h
      dsimp only at h
      split_ifs at h hout
      · exact hout u h
      · exact (ih h).imp_right (List.mem_cons_of_mem url)
      · exact hout u h
      · exact (ih h).elim (hout u) fun hu ↦ Or.inr (List.mem_cons_of_mem url hu)

theorem mem_seedsOf {stage : StageKind} {task : PlannedTask} {discovered : List String} {u : String}
    (h : u ∈ seedsOf stage task discovered) : u ∈ task.seedUrls ∨ u ∈ discovered := by
  unfold seedsOf at h
  split_ifs at h
  · exact mem_mergeSeeds h
  · exact Or.inl h

variable {σ : Type} {o : Orchestrator σ} {scan scan₁ : Scan} {target : Target} {scope : ScopeEngine}
  {tasks : List (StageKind × PlannedTask)} {progress progress' : Progress} {s s' : σ}
  {runs : List TaskRun} {p p₁ : Platform σ} {plan : ScanPlan} {u : String}

/-- Whatever the engines report, only URLs in scope are remembered. -/
theorem Loops.discovered_allowed
    (h : Loops o scan target scope tasks progress s runs progress' s')
    (hstart : ∀ u ∈ progress.discovered, scope.Allows o.env.regex u none) :
    ∀ u ∈ progress'.discovered, scope.Allows o.env.regex u none := by
  induction h with
  | nil => exact hstart
  | unbound _ _ ih => exact ih hstart
  | bound _ _ _ _ hdiscovers _ ih =>
      apply ih
      exact fun u hu ↦ (mem_collectDiscovered hdiscovers hu).elim (hstart u) And.right

/-- When all engines that are pointed at good URLs report only good observations, and the
evidence of these holds only good URLs, everything that is reported is good. -/
theorem Loops.forall_observations {good : String → Prop} {K : Observation → Prop}
    (h : Loops o scan target scope tasks progress s runs progress' s')
    (htasks : ∀ entry ∈ tasks, ∀ u ∈ entry.2.seedUrls, good u)
    (hstart : ∀ u ∈ progress.discovered, good u)
    (hruns : ∀ r ∈ runs, (∀ u ∈ r.seedUrls, good u) → ∀ obs ∈ r.outcome.observations, K obs)
    (hurls : ∀ observations, (∀ obs ∈ observations, K obs) →
      ∀ u ∈ evidenceUrls observations, good u) :
    ∀ r ∈ runs, ∀ obs ∈ r.outcome.observations, K obs := by
  induction h with
  | nil => exact List.forall_mem_nil _
  | unbound _ _ ih =>
      refine List.forall_mem_cons.mpr ⟨List.forall_mem_nil _, ?_⟩
      exact ih (fun entry hentry ↦ htasks entry (List.mem_cons_of_mem _ hentry)) hstart
        fun r hr ↦ hruns r (List.mem_cons_of_mem _ hr)
  | @bound stage task _ progress _ _ _ _ _ _ _ _ _ _ _ _ _ _ _ hdiscovers _ ih =>
      have hseeds : ∀ u ∈ seedsOf stage task progress.discovered, good u := fun u hu ↦
        (mem_seedsOf hu).elim (htasks _ List.mem_cons_self u) (hstart u)
      have hfirst := hruns _ List.mem_cons_self hseeds
      refine List.forall_mem_cons.mpr ⟨hfirst, ih ?_ ?_ ?_⟩
      · exact fun entry hentry ↦ htasks entry (List.mem_cons_of_mem _ hentry)
      · intro u hu
        rcases mem_collectDiscovered hdiscovers hu with hu | ⟨hu, -⟩
        · exact hstart u hu
        · exact hurls _ hfirst u hu
      · exact fun r hr ↦ hruns r (List.mem_cons_of_mem _ hr)

/-! ## Plans -/

theorem planStage_ok (h : o.planStage scan target p = (.ok (scan₁, scope, plan), p₁)) :
    (∃ now, scope = .ofTarget target now) ∧
      ∃ policy, plan.stages = (o.plan target policy target.baseUrls).stages := by
  obtain ⟨scan₂, p₂, -, h⟩ := Effect.exists_of_bind_ok h
  obtain ⟨scan₃, p₃, -, h⟩ := Effect.exists_of_bind_ok h
  obtain ⟨scan₄, p₄, -, h⟩ := Effect.exists_of_bind_ok h
  obtain ⟨now, p₅, -, h⟩ := Effect.exists_of_bind_ok h
  obtain ⟨h, -⟩ := Effect.eq_of_pure h
  obtain ⟨-, rfl, rfl⟩ := h
  exact ⟨⟨now, rfl⟩, scan₃.policy, rfl⟩

/-- The orchestrator plans with the planner over its own registry. -/
def PlansItself (o : Orchestrator σ) : Prop :=
  o.plan = ScanPlanner.plan ⟨o.registry.enginesFor, o.plannerConfig⟩

theorem seedUrls_of_planStage (hplanner : PlansItself o)
    (h : o.planStage scan target p = (.ok (scan₁, scope, plan), p₁)) {stage : StageKind}
    {task : PlannedTask} (htask : (stage, task) ∈ plan.tasks) : task.seedUrls = target.baseUrls := by
  obtain ⟨-, policy, hstages⟩ := planStage_ok h
  obtain ⟨planned, hplanned, htask⟩ := List.mem_flatMap.mp htask
  obtain ⟨task', htask', heq⟩ := List.mem_map.mp htask
  obtain ⟨rfl, rfl⟩ := Prod.mk.inj heq
  rw [hstages, hplanner] at hplanned
  exact seedUrls_of_mem_plan planned hplanned task' htask'

/-! ## What engines are pointed at -/

/-- In a run whose scope engine is made at the time `now`, the adapter of a
task is given these seeds. -/
inductive PointedAt (o : Orchestrator σ) (scan : Scan) (target : Target) (p : Platform σ)
    (now : Time) : List String → Prop
  | intro {scan₁ : Scan} {plan : ScanPlan} {p₁ : Platform σ} {stage : StageKind}
      {task : PlannedTask} {before after : List (StageKind × PlannedTask)} {runs : List TaskRun}
      {progress : Progress} {s : σ} {x : EngineAdapter σ}
      (hauthorized : target.isAuthorized (o.env.clock p.world).1 = true)
      (hplan : o.planStage scan target { p with world := (o.env.clock p.world).2 } =
        (.ok (scan₁, .ofTarget target now, plan), p₁))
      (htasks : plan.tasks = before ++ (stage, task) :: after)
      (hloops : Loops o scan₁ target (.ofTarget target now) before {} p₁.world runs progress s)
      (hadapter : o.registry.adapterFor task.engineId = some x) :
      PointedAt o scan target p now (seedsOf stage task progress.discovered)

/-- A task whose adapter was run comes after tasks that were run before it. -/
theorem Loops.exists_before (h : Loops o scan target scope tasks progress s runs progress' s') :
    ∀ r ∈ runs, r.outcome ≠ .unbound → ∃ stage before after runs₁ progress₁ s₁ x,
      tasks = before ++ (stage, r.task) :: after ∧
      Loops o scan target scope before progress s runs₁ progress₁ s₁ ∧
      o.registry.adapterFor r.task.engineId = some x ∧
      r.seedUrls = seedsOf stage r.task progress₁.discovered := by
  induction h with
  | nil => simp
  | @unbound stage task tasks progress _ s _ runs hadapter _ ih =>
      refine List.forall_mem_cons.mpr ⟨fun hne ↦ absurd rfl hne, fun r hr hne ↦ ?_⟩
      obtain ⟨stage', before, after, runs₁, progress₁, s₁, x, rfl, hloops, hx, hseeds⟩ := ih r hr hne
      exact ⟨stage', (stage, task) :: before, after, _, progress₁, s₁, x, rfl,
        .unbound hadapter hloops, hx, hseeds⟩
  | @bound stage task tasks progress _ s _ _ _ runs x md request outcome discovered hadapter
      hmetadata hrequest hends hdiscovers _ ih =>
      refine List.forall_mem_cons.mpr ⟨fun _ ↦ ?_, fun r hr hne ↦ ?_⟩
      · exact ⟨stage, [], tasks, [], progress, s, x, rfl, .nil progress s, hadapter, rfl⟩
      · obtain ⟨stage', before, after, runs₁, progress₁, s₁, x', rfl, hloops, hx, hseeds⟩ :=
          ih r hr hne
        exact ⟨stage', (stage, task) :: before, after, _, progress₁, s₁, x', rfl,
          .bound hadapter hmetadata hrequest hends hdiscovers hloops, hx, hseeds⟩

/-- The engines that are run are pointed at the seeds of their tasks. -/
theorem Executes.pointedAt (h : Executes o scan target p runs) :
    ∃ now, ∀ r ∈ runs, r.outcome ≠ .unbound → PointedAt o scan target p now r.seedUrls := by
  cases h with
  | refused hauthorized => exact ⟨0, by simp⟩
  | conducted hauthorized hplan hloops =>
      obtain ⟨⟨now, rfl⟩, -⟩ := planStage_ok hplan
      refine ⟨now, fun r hr hne ↦ ?_⟩
      obtain ⟨stage, before, after, runs₁, progress₁, s₁, x, htasks, hbefore, hadapter, hseeds⟩ :=
        hloops.exists_before r hr hne
      rw [hseeds]
      exact .intro hauthorized hplan htasks hbefore hadapter

/-- No engine is pointed at a URL out of scope, whatever the engines are, the
plan that is made for them and what they report. -/
def SeedsInScope (re : RegexEngine String) (target : Target) (now : Time) : Prop :=
  ∀ (σ : Type) (o : Orchestrator σ) (scan : Scan) (p : Platform σ) (seeds : List String),
    o.env.regex = re → PlansItself o → PointedAt o scan target p now seeds →
      ∀ u ∈ seeds, (ScopeEngine.ofTarget target now).Allows re u none

/-- A seed is a base URL or in scope. -/
theorem PointedAt.baseUrl_or_allowed {now : Time} {seeds : List String} (hplanner : PlansItself o)
    (h : PointedAt o scan target p now seeds) (hu : u ∈ seeds) :
    u ∈ target.baseUrls ∨ (ScopeEngine.ofTarget target now).Allows o.env.regex u none := by
  cases h with
  | @intro scan₁ plan p₁ stage task before after runs progress s x _ hplan htasks hloops _ =>
      have hmem : (stage, task) ∈ plan.tasks := by
        rw [htasks]
        exact List.mem_append_right _ List.mem_cons_self
      rcases mem_seedsOf hu with hu | hu
      · rw [seedUrls_of_planStage hplanner hplan hmem] at hu
        exact Or.inl hu
      · exact Or.inr (hloops.discovered_allowed (by simp) u hu)

/-! ## An engine that is pointed at the base URLs -/

def silentEngine : EngineAdapter Bool where
  metadata := pure demoMetadata
  Prepared := Unit
  Outcome := Unit
  Raw := Unit
  healthCheck := pure .healthy
  prepareTarget _ := pure ()
  executeScan _ := pure ()
  collectResults _ := pure ()
  normalizeResults _ _ := pure []
  cleanup _ := pure ()

/-- The clock is read for the first time, and later on. -/
def lateOrchestrator (re : RegexEngine String) (first later : Time) : Orchestrator Bool where
  env :=
    { clock := fun s ↦ (if s then later else first, true)
      newIds := fun s ↦ (fun _ ↦ "f", s)
      regex := re
      loads := fun _ ↦ .ok .null
      digests := { demoDigests with sha256 := demoSha256 }
      evidenceVariable := none }
  registry :=
    { policy := demoPolicy
      engines := Dict.empty.set "zap"
        { manifest := demoManifest
          lock := { version := "2.16.1", license := "Apache-2.0" }
          metadata := demoMetadata
          adapter := some silentEngine
          problems := []
          notes := [] } }
  risk _ := 25

def latePlatform : Platform Bool := ⟨demoShared.platform.db, false⟩

theorem latePlan_tasks (re : RegexEngine String) (first later : Time) (target : Target) :
    ((lateOrchestrator re first later).plan target {} target.baseUrls).tasks =
      [(.audit, newTask target {} target.baseUrls .auditPassive demoMetadata)] := by
  obtain ⟨id, tenantId, name, baseUrls, kind, scopeRules, rateLimits, authorization, now, -, -⟩ :=
    target
  cases kind <;> rfl

theorem pointedAt_baseUrls (re : RegexEngine String) {target : Target} {first : Time}
    (h : target.isAuthorized first = true) (later : Time) :
    PointedAt (lateOrchestrator re first later) demoScan target latePlatform later
      target.baseUrls := by
  let task := newTask target {} target.baseUrls .auditPassive demoMetadata
  refine @PointedAt.intro Bool _ _ _ _ _ _ _ _ .audit task [] [] _ _ _ _ h rfl ?_ (.nil _ _) rfl
  exact latePlan_tasks re first later target

/-! ## The law -/

/-- Engines are pointed only at URLs in scope exactly when all base URLs of the
target are in scope. -/
theorem seedsInScope_iff {re : RegexEngine String} {target : Target} {now : Time}
    (hauthorized : ∃ first, target.isAuthorized first = true) :
    SeedsInScope re target now ↔
      ∀ u ∈ target.baseUrls, (ScopeEngine.ofTarget target now).Allows re u none := by
  constructor
  · intro h
    obtain ⟨first, hfirst⟩ := hauthorized
    have hpointed := pointedAt_baseUrls re hfirst now
    exact h Bool (lateOrchestrator re first now) demoScan latePlatform _ rfl rfl hpointed
  · intro hbase σ o scan p seeds hre hplanner hpointed u hu
    rcases hpointed.baseUrl_or_allowed hplanner hu with hu | hallowed
    · exact hbase u hu
    · rwa [hre] at hallowed

theorem demoTarget_authorized : demoTarget.isAuthorized 0 = true := rfl

theorem seedsInScope_iff_demoTarget : SeedsInScope (fun _ ↦ none) demoTarget 0 ↔
    ∀ u ∈ demoTarget.baseUrls, (ScopeEngine.ofTarget demoTarget 0).Allows (fun _ ↦ none) u none :=
  seedsInScope_iff ⟨0, demoTarget_authorized⟩

theorem shopPath_ok : Text.startsWith "/shop" "/" = true := by decide

/-- The rules cover the shop alone, and the base URL is the root of the host. -/
def shopTarget : Target :=
  { demoTarget with scopeRules := [{ demoHost with pathPrefix := "/shop", pathPrefix_ok := shopPath_ok }] }

theorem not_seedsInScope_shopTarget : ¬ SeedsInScope (fun _ ↦ none) shopTarget 0 := by
  intro h
  have hauthorized : shopTarget.isAuthorized 0 = true := demoTarget_authorized
  have hpointed := pointedAt_baseUrls (fun _ ↦ none) hauthorized 0
  have hallowed := h Bool (lateOrchestrator (fun _ ↦ none) 0 0) demoScan latePlatform _ rfl rfl
    hpointed "https://app.example/" List.mem_cons_self
  revert hallowed
  decide +kernel

end Vantage.Scan
