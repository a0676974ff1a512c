import Vantage.Engines.Adapter
import Vantage.Governance.Policy
import Vantage.Lib.Dict

/-!
# The engine registry

Manifests are checked against the lock file and the license policy when they
are registered. What is exposed afterwards is usable: it has no problem on
record, is enabled and approved.
-/

namespace Vantage.Engines

open Text Governance

structure EngineManifest where
  id : String
  name : String
  vendor : String
  homepage : String := ""
  license : String
  integration : IntegrationType
  capabilities : List Capability
  image : Option String := none
  enabled : Bool := true
  capabilities_ne : capabilities ≠ []

structure EngineLockEntry where
  version : String
  imageDigest : Option String := none
  license : String

abbrev EngineLock := Dict String EngineLockEntry

/-- A text that is there and not empty. -/
def present (s : Option String) : Bool := s.any (· ≠ "")

/-! ## Registration -/

/-- What registration finds out about a manifest. -/
structure Registration where
  lock : EngineLockEntry
  metadata : EngineMetadata
  problems : List String := []
  notes : List String := []

def metadataOf (manifest : EngineManifest) (version : String) (licenseClass : LicenseClass)
    (approval : ApprovalStatus) (image : Option String) : Except PyError EngineMetadata :=
  EngineMetadata.modelValidate
    { id := manifest.id
      name := manifest.name
      version := version
      vendor := manifest.vendor
      licenseSpdx := manifest.license
      licenseClass := licenseClass
      approvalStatus := approval
      integration := manifest.integration
      capabilities := manifest.capabilities
      image := image
      homepage := if manifest.homepage = "" then none else some manifest.homepage }

/-- First-party engines; the policy for third parties does not apply. -/
def registerNative (manifest : EngineManifest) (lock : EngineLock) :
    Except PyError Registration := do
  let entry := (lock.get? manifest.id).getD { version := manifest.name, license := manifest.license }
  let metadata ← metadataOf manifest entry.version .green .approved none
  pure { lock := entry, metadata := metadata }

/-- Services that the customer hosts; they are classified, and approved whatever the class. -/
def registerExternal (policy : LicensePolicy) (manifest : EngineManifest) (lock : EngineLock) :
    Except PyError Registration := do
  let entry := (lock.get? manifest.id).getD { version := manifest.name, license := manifest.license }
  let note := "bring-your-own-license: requires a customer-provided, separately licensed '" ++
    manifest.vendor ++ "' instance; Vantage distributes only the API client"
  let decision ← policy.classify manifest.license
  let metadata ← metadataOf manifest entry.version decision.licenseClass .approved none
  pure { lock := entry, metadata := metadata, notes := [note] }

/-- The problems and the approval that follow from the class of the license. -/
def reviewOf (policy : LicensePolicy) (manifest : EngineManifest) :
    LicenseClass → List String × ApprovalStatus
  | .unknown => (["license '" ++ manifest.license ++ "' is UNKNOWN to policy"], .rejected)
  | .red =>
      if manifest.integration.value ∈ policy.armsLengthIntegrationTypes then
        (["RED license '" ++ manifest.license ++
          "' allowed only as isolated engine after recorded legal approval"], .pendingReview)
      else
        (["RED license '" ++ manifest.license ++ "' cannot be embedded (" ++
          manifest.integration.value ++ ")"], .rejected)
  | .yellow =>
      (["YELLOW license '" ++ manifest.license ++ "' requires recorded review"], .pendingReview)
  | .green => ([], .approved)

def pinProblems : Option EngineLockEntry → List String
  | none => ["not pinned in engine-lock.yaml"]
  | some _ => []

def mismatchProblems (manifest : EngineManifest) (entry : EngineLockEntry) : List String :=
  if entry.license ≠ "" ∧ entry.license ≠ manifest.license then
    ["license mismatch: manifest=" ++ manifest.license ++ " lock=" ++ entry.license]
  else []

def containerized (integration : IntegrationType) : Bool :=
  integration = .containerCli || integration = .containerApi

def imageProblems (manifest : EngineManifest) (entry : EngineLockEntry) : List String :=
  if containerized manifest.integration then
    if !present manifest.image then ["containerized engine has no image"]
    else if present entry.imageDigest && !contains (manifest.image.getD "") "@sha256:" then
      ["image is not pinned by digest"]
    else []
  else []

def registerThirdParty (policy : LicensePolicy) (manifest : EngineManifest) (lock : EngineLock) :
    Except PyError Registration := do
  let entry := (lock.get? manifest.id).getD { version := "UNPINNED", license := manifest.license }
  let decision ← policy.classify manifest.license
  let review := reviewOf policy manifest decision.licenseClass
  let metadata ← metadataOf manifest entry.version decision.licenseClass review.2 manifest.image
  pure
    { lock := entry
      metadata := metadata
      problems := pinProblems (lock.get? manifest.id) ++ review.1 ++
        mismatchProblems manifest entry ++ imageProblems manifest entry }

def registration (policy : LicensePolicy) (manifest : EngineManifest) (lock : EngineLock) :
    Except PyError Registration :=
  match manifest.integration with
  | .native => registerNative manifest lock
  | .externalService => registerExternal policy manifest lock
  | _ => registerThirdParty policy manifest lock

/-! ## The registry -/

variable {σ : Type}

structure RegisteredEngine (σ : Type) where
  manifest : EngineManifest
  lock : EngineLockEntry
  metadata : EngineMetadata
  adapter : Option (EngineAdapter σ)
  problems : List String
  notes : List String

def RegisteredEngine.usable (e : RegisteredEngine σ) : Bool :=
  e.problems.isEmpty && e.manifest.enabled && e.metadata.approvalStatus = .approved

structure EngineRegistry (σ : Type) where
  policy : LicensePolicy
  engines : Dict String (RegisteredEngine σ)

namespace EngineRegistry

variable (reg : EngineRegistry σ)

/-- A manifest replaces an earlier one with its identifier. -/
def registerManifest (manifest : EngineManifest) (lock : EngineLock) :
    Except PyError (EngineRegistry σ) :=
  match registration reg.policy manifest lock with
  | .error e => .error e
  | .ok r =>
      let entry : RegisteredEngine σ :=
        { manifest := manifest
          lock := r.lock
          metadata := r.metadata
          adapter := none
          problems := r.problems
          notes := r.notes }
      .ok { reg with engines := reg.engines.set manifest.id entry }

/-- The manifests come in the order of their file names. -/
def load (σ : Type) (policy : LicensePolicy) (manifests : List EngineManifest) (lock : EngineLock) :
    Except PyError (EngineRegistry σ) :=
  manifests.foldlM (fun reg manifest ↦ reg.registerManifest manifest lock) ⟨policy, .empty⟩

def get (engineId : String) : Option (RegisteredEngine σ) := reg.engines.get? engineId

def update (engineId : String) (f : RegisteredEngine σ → RegisteredEngine σ) :
    Except PyError (EngineRegistry σ) :=
  match reg.engines.get? engineId with
  | none => .error .keyError
  | some e => .ok { reg with engines := reg.engines.set engineId (f e) }

def bindAdapter (engineId : String) (adapter : EngineAdapter σ) : Except PyError (EngineRegistry σ) :=
  reg.update engineId fun e ↦ { e with adapter := some adapter }

def enable (engineId : String) (enabled : Bool) : Except PyError (EngineRegistry σ) :=
  reg.update engineId fun e ↦ { e with manifest := { e.manifest with enabled := enabled } }

def isReviewProblem (p : String) : Bool := contains p "recorded" || contains p "legal"

/-- The reference is put on the list of problems. -/
def approve (engineId reference : String) : Except PyError (EngineRegistry σ) :=
  reg.update engineId fun e ↦
    { e with
      metadata := { e.metadata with approvalStatus := .approved }
      problems := e.problems.filter (fun p ↦ !isReviewProblem p) ++ ["approved: " ++ reference] }

/-- Engines that the planner may choose from. -/
def visible : List (RegisteredEngine σ) :=
  reg.engines.values.filter fun e ↦ e.usable && e.adapter.isSome

def enabledEngines : List EngineMetadata := reg.visible.map RegisteredEngine.metadata

def preference (e : RegisteredEngine σ) : ℕ := if e.metadata.integration = .native then 0 else 1

/-- First-party engines come first; the sort is stable. -/
def enginesFor (capability : Capability) : List EngineMetadata :=
  ((reg.visible.filter fun e ↦ e.metadata.capabilities.contains capability).insertionSort
    fun e e' ↦ preference e ≤ preference e').map RegisteredEngine.metadata

def adapterFor (engineId : String) : Option (EngineAdapter σ) :=
  match reg.engines.get? engineId with
  | none => none
  | some e => if e.usable then e.adapter else none

end EngineRegistry

/-! ## Histories -/

inductive Operation (σ : Type) where
  | bindAdapter (engineId : String) (adapter : EngineAdapter σ)
  | enable (engineId : String) (enabled : Bool)
  | approve (engineId reference : String)

def Operation.apply (reg : EngineRegistry σ) : Operation σ → Except PyError (EngineRegistry σ)
  | .bindAdapter engineId adapter => reg.bindAdapter engineId adapter
  | .enable engineId enabled => reg.enable engineId enabled
  | .approve engineId reference => reg.approve engineId reference

/-- A call that raises leaves the registry as it is. -/
def Operation.perform (reg : EngineRegistry σ) (op : Operation σ) : EngineRegistry σ :=
  match op.apply reg with
  | .error _ => reg
  | .ok reg' => reg'

def EngineRegistry.run (reg : EngineRegistry σ) (ops : List (Operation σ)) : EngineRegistry σ :=
  ops.foldl Operation.perform reg

end Vantage.Engines
