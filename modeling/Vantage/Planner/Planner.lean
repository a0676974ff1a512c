import Vantage.Domain.Scan

/-!
# The scan planner

Engines are selected by capability and ordered into stages. A capability that
no enabled engine provides is skipped.
-/

namespace Vantage.Planner

/-- `list(Capability)`. -/
def allCapabilities : List Capability :=
  [.crawlHttp, .crawlBrowser, .discoveryContent, .discoveryJs, .discoveryApiSpec,
   .discoverySubdomain, .reconHttp, .fingerprintTech, .analysisTls, .analysisDns, .analysisHeaders,
   .analysisSecrets, .auditPassive, .auditActive, .auditTemplates, .auditApiRest, .auditApiGraphql,
   .auditApiSoap, .auditWebsocket, .auditAuthz, .oobCallback, .validation]

theorem mem_allCapabilities (cap : Capability) : cap ∈ allCapabilities := by
  cases cap <;> decide

/-- Capabilities of a profile; PASSIVE never sends crafted test input. -/
def profileCaps : ScanProfile → List Capability
  | .passive =>
      [.fingerprintTech, .crawlHttp, .analysisTls, .analysisHeaders, .analysisSecrets, .auditPassive]
  | .standard =>
      [.fingerprintTech, .crawlHttp, .discoveryJs, .discoveryContent, .analysisTls,
       .analysisHeaders, .analysisSecrets, .auditPassive, .auditTemplates, .auditActive, .validation]
  | .deep => allCapabilities

/-- What matters for a kind of application. -/
def kindCaps : ApplicationKind → List Capability
  | .unknown => []
  | .traditionalWeb => [.crawlHttp, .discoveryContent, .auditActive, .auditTemplates]
  | .spa => [.crawlBrowser, .discoveryJs, .discoveryApiSpec, .auditActive, .auditTemplates]
  | .restApi => [.discoveryApiSpec, .auditApiRest, .auditAuthz, .auditTemplates]
  | .graphqlApi => [.discoveryApiSpec, .auditApiGraphql, .auditAuthz]
  | .soapApi => [.discoveryApiSpec, .auditApiSoap, .auditApiRest]
  | .websocket => [.auditWebsocket]

def universalCaps : List Capability :=
  [.fingerprintTech, .analysisTls, .analysisHeaders, .analysisSecrets, .auditPassive, .validation,
   .oobCallback]

def capStage : Capability → StageKind
  | .fingerprintTech | .discoverySubdomain | .reconHttp | .analysisDns => .fingerprint
  | .crawlHttp | .crawlBrowser | .discoveryContent | .discoveryJs | .discoveryApiSpec => .discovery
  | .analysisTls | .analysisHeaders | .analysisSecrets | .auditPassive | .auditActive
  | .auditTemplates | .auditApiRest | .auditApiGraphql | .auditApiSoap | .auditWebsocket
  | .auditAuthz | .oobCallback => .audit
  | .validation => .validation

def stageOrder : List StageKind := [.fingerprint, .discovery, .audit, .validation]

structure PlannerConfig where
  redundantEngines : Bool := false

/-- The planner over the catalog's `engines_for`. -/
structure ScanPlanner where
  enginesFor : Capability → List EngineMetadata
  config : PlannerConfig := {}

/-- `_wanted_capabilities`; an empty allowlist counts as none. -/
def wantedCapabilities (target : Target) (policy : ScanPolicy) : List Capability :=
  let profile := match policy.capabilities with
    | none => profileCaps policy.profile
    | some [] => profileCaps policy.profile
    | some caps => caps
  let allowed := if target.kind = .unknown then profile else universalCaps ++ kindCaps target.kind
  profile.filter (· ∈ allowed)

/-! ## Tasks -/

theorem capabilities_append_ne (caps : List Capability) (cap : Capability) : caps ++ [cap] ≠ [] :=
  List.append_ne_nil_of_right_ne_nil caps (List.cons_ne_nil cap [])

/-- The task takes on another capability. -/
def addCapability (cap : Capability) (task : PlannedTask) : PlannedTask where
  engineId := task.engineId
  capabilities := task.capabilities ++ [cap]
  seedUrls := task.seedUrls
  reason := task.reason ++ "; +" ++ cap.value
  capabilities_ne := capabilities_append_ne task.capabilities cap

def newTask (target : Target) (policy : ScanPolicy) (seedUrls : List String) (cap : Capability)
    (md : EngineMetadata) : PlannedTask where
  engineId := md.id
  capabilities := [] ++ [cap]
  seedUrls := seedUrls
  reason := "selected " ++ md.id ++ " for " ++ cap.value ++ " (profile=" ++ policy.profile.value ++
    ", app=" ++ target.kind.value ++ ")"
  capabilities_ne := capabilities_append_ne [] cap

/-- The first task of the engine takes on the capability, or else there is a new task. -/
def assign (cap : Capability) (task : PlannedTask) : List PlannedTask → List PlannedTask
  | [] => [task]
  | t :: tasks =>
      if t.engineId = task.engineId then addCapability cap t :: tasks
      else t :: assign cap task tasks

/-! ## Plans -/

/-- A plan in the making. -/
structure Draft where
  stages : StageKind → List PlannedTask := fun _ ↦ []
  skipped : List String := []

namespace ScanPlanner

variable (p : ScanPlanner) (target : Target) (policy : ScanPolicy) (seedUrls : List String)

/-- The engines that are asked for a capability. -/
def chosen (cap : Capability) : List EngineMetadata :=
  let engines := (p.enginesFor cap).filter (·.id ∉ policy.disabledEngines)
  if p.config.redundantEngines then engines else engines.take 1

/-- The tasks of a stage with those of some engines for a capability. -/
def assignAll (cap : Capability) (engines : List EngineMetadata) (tasks : List PlannedTask) :
    List PlannedTask :=
  engines.foldl (fun tasks md ↦ assign cap (newTask target policy seedUrls cap md) tasks) tasks

/-- The round of the loop for one capability. -/
def planCapability (d : Draft) (cap : Capability) : Draft :=
  let engines := p.chosen policy cap
  if engines.isEmpty then
    { d with skipped := d.skipped ++ [cap.value ++ ": no enabled engine provides this capability"] }
  else
    let tasks := assignAll target policy seedUrls cap engines (d.stages (capStage cap))
    { d with stages := Function.update d.stages (capStage cap) tasks }

def draft : Draft := (wantedCapabilities target policy).foldl (p.planCapability target policy seedUrls) {}

/-- `ScanPlanner.plan`. -/
def plan : ScanPlan :=
  let d := p.draft target policy seedUrls
  { scanId := ""
    stages := (stageOrder.filter fun s ↦ !(d.stages s).isEmpty).map fun s ↦ ⟨s, d.stages s⟩
    skipped := d.skipped }

end ScanPlanner

/-! ## What holds of all tasks -/

variable {p : ScanPlanner} {target : Target} {policy : ScanPolicy} {seedUrls : List String}
  {P : PlannedTask → Prop} {cap : Capability}

theorem assign_forall {task : PlannedTask} {tasks : List PlannedTask}
    (hadd : ∀ t, P t → P (addCapability cap t)) (hnew : P task) (h : ∀ t ∈ tasks, P t) :
    ∀ t ∈ assign cap task tasks, P t := by
  induction tasks with
  | nil => simpa [assign] using hnew
  | cons t tasks ih =>
      have ht := h t List.mem_cons_self
      have htasks := fun t' ht' ↦ h t' (List.mem_cons_of_mem _ ht')
      unfold assign
      split_ifs
      · exact List.forall_mem_cons.mpr ⟨hadd t ht, htasks⟩
      · exact List.forall_mem_cons.mpr ⟨ht, ih htasks⟩

theorem assignAll_forall {engines : List EngineMetadata} {tasks : List PlannedTask}
    (hadd : ∀ t, P t → P (addCapability cap t))
    (hnew : ∀ md, P (newTask target policy seedUrls cap md)) (h : ∀ t ∈ tasks, P t) :
    ∀ t ∈ ScanPlanner.assignAll target policy seedUrls cap engines tasks, P t := by
  induction engines generalizing tasks with
  | nil => exact h
  | cons md engines ih => exact ih (assign_forall hadd (hnew md) h)

theorem planCapability_forall {d : Draft} (hadd : ∀ t, P t → P (addCapability cap t))
    (hnew : ∀ md, P (newTask target policy seedUrls cap md)) (h : ∀ s, ∀ t ∈ d.stages s, P t) :
    ∀ s, ∀ t ∈ (p.planCapability target policy seedUrls d cap).stages s, P t := by
  intro s
  cases hnone : (p.chosen policy cap).isEmpty with
  | true =>
      simp only [ScanPlanner.planCapability, hnone, if_true]
      exact h s
  | false =>
      simp only [ScanPlanner.planCapability, hnone, Bool.false_eq_true, if_false]
      by_cases hs : s = capStage cap
      · subst hs
        rw [Function.update_self]
        exact assignAll_forall hadd hnew (h _)
      · rw [Function.update_of_ne hs]
        exact h s

theorem draft_forall
    (hadd : ∀ cap ∈ wantedCapabilities target policy, ∀ t, P t → P (addCapability cap t))
    (hnew : ∀ cap ∈ wantedCapabilities target policy, ∀ md,
      P (newTask target policy seedUrls cap md)) :
    ∀ s, ∀ t ∈ (p.draft target policy seedUrls).stages s, P t := by
  unfold ScanPlanner.draft
  refine List.foldlRecOn (motive := fun d : Draft ↦ ∀ s, ∀ t ∈ d.stages s, P t) _ _ (by simp) ?_
  exact fun d hd cap hcap ↦ planCapability_forall (hadd cap hcap) (hnew cap hcap) hd

/-- What new tasks have and capabilities do not take away, all tasks of a plan have. -/
theorem plan_forall
    (hadd : ∀ cap ∈ wantedCapabilities target policy, ∀ t, P t → P (addCapability cap t))
    (hnew : ∀ cap ∈ wantedCapabilities target policy, ∀ md,
      P (newTask target policy seedUrls cap md)) :
    ∀ stage ∈ (p.plan target policy seedUrls).stages, ∀ t ∈ stage.tasks, P t := by
  intro stage hstage
  obtain ⟨s, -, rfl⟩ := List.mem_map.mp hstage
  exact draft_forall hadd hnew s

/-- Every task starts from the given seeds. -/
theorem seedUrls_of_mem_plan :
    ∀ stage ∈ (p.plan target policy seedUrls).stages, ∀ t ∈ stage.tasks, t.seedUrls = seedUrls :=
  plan_forall (fun _ _ _ ht ↦ ht) fun _ _ _ ↦ rfl

end Vantage.Planner
