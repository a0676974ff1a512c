import Vantage.Engines.Registry
import Vantage.Findings.Reporting
import Vantage.Planner.Planner
import Vantage.Scan.Lifecycle
import Vantage.Scan.ValidationStage
import Vantage.Scope.Engine

/-!
# The orchestrator

A scan is planned, its engines are run one after the other, and what they
report is stored, validated, correlated, scored and annotated. Failures inside
the lifecycle of an engine are caught; all other calls are unguarded.
-/

namespace Vantage.Scan

open Text Scope Engines Findings Persistence Planner Ai

/-! ## What has been tested -/

/-- The test classes that each endpoint has been tested for. -/
abbrev RequestKnowledgeBase := Dict String (List String)

def coverageKey (loc : Location) : String :=
  join "|" [lower loc.host, toString loc.port, normalizeEndpoint loc.path,
    upper (orElse loc.method "GET"), orElse loc.parameter "*"]

namespace RequestKnowledgeBase

def mark (kb : RequestKnowledgeBase) (key testClass : String) : RequestKnowledgeBase :=
  let classes := (kb.get? key).getD []
  kb.set key (if testClass ∈ classes then classes else classes ++ [testClass])

def markAll (kb : RequestKnowledgeBase) (observations : List Observation) : RequestKnowledgeBase :=
  observations.foldl (fun kb obs ↦ kb.mark (coverageKey obs.location) obs.vulnClass) kb

def size (kb : RequestKnowledgeBase) : ℕ := (kb.values.map List.length).sum

end RequestKnowledgeBase

/-! ## The feedback loop -/

def maxDiscovered : ℕ := 60

def maxFedSeeds : ℕ := 40

/-- The URLs in the data of the evidence, in the order of the loops. -/
def evidenceUrls (observations : List Observation) : List String :=
  observations.flatMap fun obs ↦ obs.evidence.filterMap fun ev ↦
    match Json.lookup ev.data "url" with
    | some (.str url) => some url
    | _ => none

/-- `_collect_discovered`; the bound is tested when a URL has been added. -/
def collectDiscovered (allows : String → Except PyError Bool) (cap : ℕ) :
    List String → List String → Except PyError (List String)
  | [], found => .ok found
  | url :: urls, found =>
      if url ∈ found then collectDiscovered allows cap urls found
      else do
        let allowed ← allows url
        if allowed then
          if cap ≤ (found ++ [url]).length then .ok (found ++ [url])
          else collectDiscovered allows cap urls (found ++ [url])
        else collectDiscovered allows cap urls found

/-- `_merge_seeds`; the bound is tested after each URL. -/
def mergeSeeds (cap : ℕ) : List String → List String → List String
  | seeds, [] => seeds
  | seeds, url :: urls =>
      let out := if url ∈ seeds then seeds else seeds ++ [url]
      if cap ≤ out.length then out else mergeSeeds cap out urls

/-- The seeds of a task; audit stages get what was discovered before. -/
def seedsOf (stage : StageKind) (task : PlannedTask) (discovered : List String) : List String :=
  if stage = .audit ∧ discovered ≠ [] then mergeSeeds maxFedSeeds task.seedUrls discovered
  else task.seedUrls

/-! ## The collaborators -/

/-- What the standard library supplies. -/
structure Environment (σ : Type) where
  clock : σ → Time × σ
  /-- Fresh identifiers in the order in which they are drawn. -/
  newIds : σ → (ℕ → String) × σ
  regex : RegexEngine String
  loads : String → Except PyError Json
  digests : Digests
  /-- `VANTAGE_EVIDENCE_KEY`. -/
  evidenceVariable : Option String

structure Orchestrator (σ : Type) where
  env : Environment σ
  registry : EngineRegistry σ
  plannerConfig : PlannerConfig := {}
  /-- The method of the planner. -/
  plan : Target → ScanPolicy → List String → ScanPlan :=
    ScanPlanner.plan ⟨registry.enginesFor, plannerConfig⟩
  validation : ValidationEngine σ := {}
  /-- The score of the risk engine. -/
  risk : UnifiedFinding → ℚ
  proberFactory : Option (Target → Effect PyError σ (Prober σ)) := none
  validateFindings : Bool := true
  analyst : LLMProvider σ := nullProvider
  evidenceKey : Option String := none

/-- What the engine loop has gathered. -/
structure Progress where
  observations : List Observation := []
  enginesRun : List String := []
  enginesFailed : List String := []
  discovered : List String := []
  covered : RequestKnowledgeBase := .empty

variable {σ : Type}

/-! ## One engine -/

def requestOf (scan : Scan) (target : Target) (md : EngineMetadata) (task : PlannedTask)
    (seedUrls : List String) : RawEngineRunRequest where
  scanId := scan.id
  tenantId := scan.tenantId
  engineId := md.id
  capabilities := task.capabilities
  seedUrls := seedUrls
  scopeRules := target.scopeRules.map ScopeRule.dump
  maxRequestsPerSecond := target.rateLimits.maxRequestsPerSecond
  maxConcurrency := target.rateLimits.maxConcurrency

/-- The guarded part of `_run_engine`. -/
def attempt (x : EngineAdapter σ) (request : EngineRunRequest) :
    Effect PyError σ (List Observation) :=
  Effect.recover (do
    let health ← x.healthCheck
    if health = .unavailable then pure [] else x.lifecycle request) fun _ ↦ pure []

/-- There is no transaction when there is nothing to store. -/
def storeObservations (observations : List Observation) : Effect PyError (Platform σ) Unit :=
  if observations.isEmpty then pure () else unitOfWork fun db ↦ db.addObservations observations

namespace Orchestrator

variable (o : Orchestrator σ) (scan : Scan) (target : Target)

/-- `_run_engine`; the metadata and the request are not guarded. -/
def runEngine (x : EngineAdapter σ) (task : PlannedTask) (seedUrls : List String)
    (covered : RequestKnowledgeBase) :
    Effect PyError σ (List Observation × RequestKnowledgeBase) := do
  let md ← x.metadata
  let ids ← Effect.total o.env.newIds
  let request ← Effect.ofExcept
    (EngineRunRequest.modelValidate (ids 0) (requestOf scan target md task seedUrls))
  let observations ← attempt x request
  pure (observations, covered.markAll observations)

/-- One round of the engine loop. -/
def runTask (scope : ScopeEngine) (progress : Progress) (entry : StageKind × PlannedTask) :
    Effect PyError σ Progress :=
  match o.registry.adapterFor entry.2.engineId with
  | none => pure { progress with enginesFailed := progress.enginesFailed ++ [entry.2.engineId] }
  | some x => do
      let seedUrls := seedsOf entry.1 entry.2 progress.discovered
      let (observations, covered) ← o.runEngine scan target x entry.2 seedUrls progress.covered
      let discovered ← Effect.ofExcept <| collectDiscovered
        (fun url ↦ scope.verdict o.env.regex url none) maxDiscovered (evidenceUrls observations)
        progress.discovered
      pure
        { observations := progress.observations ++ observations
          enginesRun := progress.enginesRun ++ [entry.2.engineId]
          enginesFailed := progress.enginesFailed
          discovered := discovered
          covered := covered }

def engineLoop (scope : ScopeEngine) (tasks : List (StageKind × PlannedTask)) :
    Effect PyError σ Progress :=
  Effect.foldl (o.runTask scan target scope) {} tasks

/-! ## The stages -/

def setState (dst : ScanState) (reason : Option String) : Effect PyError (Platform σ) Scan :=
  Scan.setState o.env.clock scan dst reason

/-- A target without authorization. -/
def refuse : Effect PyError (Platform σ) ScanReport := do
  let scan ← o.setState scan .queued none
  let scan ← o.setState scan .planning none
  let scan ← o.setState scan .failed (some "target not authorized")
  pure
    { scan := scan
      findings := []
      observations := 0
      enginesRun := []
      enginesFailed := []
      skippedCapabilities := ["all: target not authorized"] }

/-- Up to the start of the engine loop. -/
def planStage : Effect PyError (Platform σ) (Scan × ScopeEngine × ScanPlan) := do
  let scan ← o.setState scan .queued none
  let scan ← o.setState scan .planning none
  let plan := { o.plan target scan.policy target.baseUrls with scanId := scan.id }
  let scan ← o.setState scan .running none
  let now ← outside (Effect.total o.env.clock)
  pure (scan, .ofTarget target now, plan)

/-- The engine loop, the storing of what it reports, and the next state. -/
def engineStage (scope : ScopeEngine) (plan : ScanPlan) :
    Effect PyError (Platform σ) (Scan × Progress) := do
  let progress ← outside (o.engineLoop scan target scope plan.tasks)
  storeObservations progress.observations
  let scan ← o.setState scan .correlating none
  pure (scan, progress)

/-- Validation, when there is a prober; the call of the factory is not guarded. -/
def validationStage (observations : List Observation) : Effect PyError σ (List Observation) :=
  match o.proberFactory with
  | none => pure observations
  | some factory =>
      if o.validateFindings then do
        let prober ← factory target
        validateAll o.validation (Effect.total o.env.clock) prober observations
      else pure observations

def correlate (observations : List Observation) : Effect PyError σ (List UnifiedFinding) := do
  let ids ← Effect.total o.env.newIds
  let correlator : CorrelationEngine := ⟨scan.tenantId, scan.id, target.id⟩
  pure (correlator.correlate o.env.digests.sha256 ids observations)

/-- `merge_across_scans`; of several previous findings with one fingerprint the last counts. -/
def mergeAcrossScans (previous current : List UnifiedFinding) :
    Effect PyError σ (List UnifiedFinding) :=
  Effect.collect (fun f ↦
    match previous.reverse.find? (·.fingerprint = f.fingerprint) with
    | none => pure [f]
    | some old => do
        let now ← Effect.total o.env.clock
        pure [{ f with firstSeen := old.firstSeen, lastSeen := now }]) current

/-- `_merge_history`, with the latest completed scan of the target. -/
def mergeHistory (findings : List UnifiedFinding) :
    Effect PyError (Platform σ) (List UnifiedFinding) := do
  let p ← Effect.get
  let previous := (p.db.listScans scan.tenantId (some .completed)).filter fun s ↦
    s.targetId = target.id ∧ s.id ≠ scan.id
  match previous with
  | [] => pure findings
  | last :: _ => outside (o.mergeAcrossScans (p.db.findingsForScan last.id) findings)

/-- From the observations to the findings of the scan. -/
def correlationStage (observations : List Observation) :
    Effect PyError (Platform σ) (Scan × List UnifiedFinding) := do
  let observations ← outside (o.validationStage target observations)
  let findings ← outside (o.correlate scan target observations)
  let findings ← o.mergeHistory scan target findings
  let scan ← o.setState scan .validating none
  let findings := findings.map fun f ↦ { f with riskScore := o.risk f }
  let scan ← o.setState scan .reporting none
  pure (scan, findings)

/-- Storing and annotating the findings; the assessment is not guarded. -/
def reportStage (findings : List UnifiedFinding) :
    Effect PyError (Platform σ) (Scan × List UnifiedFinding × AiAssessment) := do
  unitOfWork fun db ↦ findings.foldlM (fun db f ↦ db.upsertFinding f) db
  let ai ← outside (assess o.env.loads o.analyst findings)
  let findings := if ai.enabled then prioritizedOrder findings ai else findings
  let scan ← o.setState scan .completed (some (toString findings.length ++ " findings"))
  pure (scan, findings, ai)

def conduct : Effect PyError (Platform σ) ScanReport := do
  let (scan, scope, plan) ← o.planStage scan target
  let (scan, progress) ← o.engineStage scan target scope plan
  let (scan, findings) ← o.correlationStage scan target progress.observations
  let (scan, findings, ai) ← o.reportStage scan findings
  pure
    { scan := scan
      findings := findings
      observations := progress.observations.length
      enginesRun := progress.enginesRun
      enginesFailed := progress.enginesFailed
      skippedCapabilities := plan.skipped
      coverageEntries := some progress.covered.size
      ai := some ai
      proofs := some <| buildProofs o.env.digests
        (.new o.evidenceKey o.env.evidenceVariable) findings }

/-- `Orchestrator.run`. -/
def run : Effect PyError (Platform σ) ScanReport := do
  let now ← outside (Effect.total o.env.clock)
  if target.isAuthorized now then o.conduct scan target else o.refuse scan

end Orchestrator

end Vantage.Scan
