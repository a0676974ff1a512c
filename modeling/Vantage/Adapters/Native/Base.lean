import Vantage.Adapters.Http
import Vantage.Engines.Adapter

/-!
# First-party adapters

The lifecycle is shared; an adapter supplies its own analysis of the seeds,
which is given a client that is scoped to the rules of the request.
-/

namespace Vantage.Adapters.Native

open Text Scope Engines

/-! ## Clients -/

/-- The rules of the request, validated again. -/
def scopeOf (request : EngineRunRequest) : Except PyError ScopeEngine := do
  let rules ← request.scopeRules.mapM ScopeRule.modelValidate
  pure (.fromRules rules true)

/-- `default_client_factory`. -/
def defaultClientFactory (request : EngineRunRequest) : Except PyError ScopedHttpClient := do
  let scope ← scopeOf request
  pure { scope := scope }

/-! ## Observations -/

/-- What an analyzer says of one issue. -/
structure Detection where
  detectorId : String
  title : String
  vulnClass : String
  severity : Severity
  cwe : List ℤ
  location : Location
  description : String
  remediation : String
  evidence : RawEvidence

/-- The location of a URL, as three of the analyzers compute it. -/
def locationOf (url : String) : Except PyError Location :=
  match Url.urlsplit url with
  | none => .error .valueError
  | some parts =>
      let scheme := lower (if parts.scheme = "" then "https" else parts.scheme)
      match parts.port with
      | none => .error .valueError
      | some explicit =>
          let fallback := if scheme = "https" then 443 else 80
          let port := match explicit with
            | none => fallback
            | some p => if p = 0 then fallback else p
          .ok <| Location.modelValidate
            { scheme := scheme
              host := lower (parts.hostname.getD "")
              port := port
              path := if parts.path = "" then "/" else parts.path
              method := some "GET" }

/-! ## Adapters -/

/-- The class attributes of an adapter. -/
structure NativeEngine where
  id : String
  name : String
  version : String := "0.1.0"
  capabilities : List Capability
  id_ok : isIdentifier id = true

def firstPartyLicense : String := "LicenseRef-Vantage-Proprietary"

def NativeEngine.metadata (e : NativeEngine) : EngineMetadata where
  id := e.id
  name := e.name
  version := e.version
  vendor := "Vantage DAST"
  licenseSpdx := firstPartyLicense
  licenseClass := .green
  approvalStatus := .approved
  integration := .native
  capabilities := e.capabilities
  image := none
  homepage := none
  id_ok := e.id_ok

structure NativeAdapter where
  engine : NativeEngine
  analyze : World → EngineRunRequest → ScopedHttpClient → Action (List Observation)

def newObservation (w : World) (engine : NativeEngine) (request : EngineRunRequest)
    (d : Detection) : Action Observation := do
  let evidence ← Effect.ofExcept (Evidence.modelValidate d.evidence)
  let id ← w.freshId
  let now ← w.utcnow
  pure { id := id
         scanId := request.scanId
         runId := request.runId
         engineId := engine.id
         engineVersion := engine.version
         detectorId := d.detectorId
         title := d.title
         vulnClass := d.vulnClass
         severity := d.severity
         confidence := .tentative
         cwe := d.cwe
         location := d.location
         description := d.description
         remediation := d.remediation
         references := []
         evidence := [evidence]
         observedAt := now
         engineId_ok := engine.id_ok }

/-- The observations for some detections, in their order. -/
def newObservations (w : World) (engine : NativeEngine) (request : EngineRunRequest)
    (detections : List Detection) : Action (List Observation) :=
  Effect.collect (fun d ↦ do
    let o ← newObservation w engine request d
    pure [o]) detections

/-- The lifecycle around the analysis; records are dumped observations. -/
def NativeAdapter.toEngineAdapter (w : World) (a : NativeAdapter) : EngineAdapter History where
  metadata := pure a.engine.metadata
  Prepared := EngineRunRequest × ScopedHttpClient
  Outcome := List Observation
  Raw := List Observation
  healthCheck := pure .healthy
  prepareTarget request := do
    let client ← Effect.ofExcept (defaultClientFactory request)
    pure (request, client)
  executeScan prepared := a.analyze w prepared.1 prepared.2
  collectResults := pure
  normalizeResults records _ := pure (records.map Observation.revalidate)
  cleanup _ := pure ()

/-! ## What is made of detections -/

/-- The observation that a detection becomes. -/
structure Reports (d : Detection) (o : Observation) : Prop where
  detectorId : o.detectorId = d.detectorId
  title : o.title = d.title
  vulnClass : o.vulnClass = d.vulnClass
  confidence : o.confidence = .tentative
  location : o.location = d.location
  description : o.description = d.description
  remediation : o.remediation = d.remediation
  references : o.references = []
  evidence : ∃ ev, Evidence.modelValidate d.evidence = .ok ev ∧ o.evidence = [ev]

variable {w : World} {engine : NativeEngine} {request : EngineRunRequest} {d : Detection}
  {detections : List Detection}

theorem returns_newObservation :
    Effect.Returns (newObservation w engine request d) (Reports d) := by
  unfold newObservation
  refine Effect.Returns.bind (Effect.Returns.ofExcept fun ev hev ↦ hev) fun ev hev ↦ ?_
  refine Effect.Returns.bind (Effect.Returns.trivial _) fun id _ ↦ ?_
  refine Effect.Returns.bind (Effect.Returns.trivial _) fun now _ ↦ Effect.Returns.pure ?_
  exact ⟨rfl, rfl, rfl, rfl, rfl, rfl, rfl, rfl, ev, hev, rfl⟩

/-- The observations are those of the detections, in their order. -/
theorem forall₂_newObservations :
    Effect.Returns (newObservations w engine request detections) (List.Forall₂ Reports detections) :=
  Effect.Returns.forall₂_collect fun _ ↦ returns_newObservation

theorem returns_newObservations :
    Effect.Returns (newObservations w engine request detections) fun obs ↦
      ∀ o ∈ obs, ∃ d ∈ detections, Reports d o := by
  refine forall₂_newObservations.mono fun obs hobs o ho ↦ ?_
  obtain ⟨i, hi, rfl⟩ := List.mem_iff_getElem.mp ho
  have hlength := hobs.length_eq
  exact ⟨detections[i], List.getElem_mem _, hobs.get _ _⟩

/-- The evidence of the detection passes its validators. -/
def Detection.Accepted (d : Detection) : Prop :=
  isIdentifier d.evidence.engineId = true ∧ d.evidence.summary.length ≤ maxSummary

theorem exists_evidence_iff : (∃ ev, Evidence.modelValidate d.evidence = .ok ev) ↔ d.Accepted := by
  unfold Evidence.modelValidate Detection.Accepted
  split_ifs with hok
  · exact iff_of_true ⟨_, rfl⟩ hok
  · exact iff_of_false (by simp) hok

theorem returnsIff_newObservation :
    Effect.ReturnsIff (newObservation w engine request d) d.Accepted := by
  rw [← exists_evidence_iff, ← and_true (∃ ev, _)]
  refine Effect.ReturnsIff.bind (Effect.ReturnsIff.ofExcept _) fun _ ev _ _ ↦ ?_
  exact fun h ↦ iff_of_true ⟨_, _, rfl⟩ True.intro

/-- All detections are reported, unless the evidence of one is refused. -/
theorem returnsIff_newObservations :
    Effect.ReturnsIff (newObservations w engine request detections)
      (∀ d ∈ detections, d.Accepted) := by
  refine Effect.ReturnsIff.collect fun d _ ↦ ?_
  rw [← and_true d.Accepted]
  exact Effect.ReturnsIff.bind returnsIff_newObservation fun _ _ _ _ ↦ Effect.ReturnsIff.pure _

/-- Detections are reported as tentative. -/
theorem newObservations_confidence :
    Effect.Returns (newObservations w engine request detections) fun obs ↦
      ∀ o ∈ obs, o.confidence = .tentative := by
  refine returns_newObservations.mono fun obs hobs o ho ↦ ?_
  obtain ⟨d, -, hreports⟩ := hobs o ho
  exact hreports.confidence

/-- The clock is read and identifiers are drawn; nothing else happens. -/
theorem logs_newObservations {P C : Event → Prop} (hquiet : World.Quiet P) :
    Effect.Logs P C (newObservations w engine request detections) fun obs ↦
      ∀ o ∈ obs, ∃ d ∈ detections, Reports d o := by
  refine Effect.Logs.of_returns ?_ returns_newObservations
  refine (Effect.Logs.collect (R := fun _ ↦ True) fun d _ ↦ ?_).mono fun _ _ ↦ True.intro
  have hobservation : Effect.Logs P C (newObservation w engine request d) fun _ ↦ True := by
    refine Effect.Logs.bind (Effect.Logs.ofExcept (Q := fun _ ↦ True) (by simp)) fun ev ↦ ?_
    refine Effect.Logs.bind (World.logs_freshId hquiet) fun id ↦ ?_
    exact Effect.Logs.bind (World.logs_utcnow hquiet) fun now ↦ Effect.Logs.pure (by simp)
  exact Effect.Logs.bind hobservation fun o ↦ Effect.Logs.pure (by simp)

end Vantage.Adapters.Native
