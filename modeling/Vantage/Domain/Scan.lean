import Vantage.Domain.Engine

/-!
# Scan policy, scan plan and lifecycle records
-/

namespace Vantage

inductive ScanProfile where
  | passive
  | standard
  | deep
deriving DecidableEq, Repr

def ScanProfile.value : ScanProfile → String
  | .passive => "passive"
  | .standard => "standard"
  | .deep => "deep"

structure ScanPolicy where
  profile : ScanProfile := .standard
  /-- The allowlist; `none` is the default of the profile. -/
  capabilities : Option (List Capability) := none
  disabledEngines : List String := []
  templateTagsDenylist : List String := ["dos", "fuzz", "intrusive", "brute-force"]

inductive ScanState where
  | created
  | queued
  | planning
  | running
  | paused
  | correlating
  | validating
  | reporting
  | completed
  | cancelling
  | cancelled
  | failed
deriving DecidableEq, Repr

def ScanState.value : ScanState → String
  | .created => "created"
  | .queued => "queued"
  | .planning => "planning"
  | .running => "running"
  | .paused => "paused"
  | .correlating => "correlating"
  | .validating => "validating"
  | .reporting => "reporting"
  | .completed => "completed"
  | .cancelling => "cancelling"
  | .cancelled => "cancelled"
  | .failed => "failed"

def terminalStates : List ScanState := [.completed, .cancelled, .failed]

inductive StageKind where
  | fingerprint
  | discovery
  | audit
  | validation
deriving DecidableEq, Repr

structure PlannedTask where
  engineId : String
  capabilities : List Capability
  seedUrls : List String
  reason : String
  capabilities_ne : capabilities ≠ []

structure PlanStage where
  kind : StageKind
  tasks : List PlannedTask

structure ScanPlan where
  scanId : String
  stages : List PlanStage
  skipped : List String

/-- The tasks in the order of the loops, with the kinds of their stages. -/
def ScanPlan.tasks (plan : ScanPlan) : List (StageKind × PlannedTask) :=
  plan.stages.flatMap fun stage ↦ stage.tasks.map fun task ↦ (stage.kind, task)

structure Scan where
  id : String
  tenantId : String
  targetId : String
  policy : ScanPolicy := {}
  state : ScanState := .created
  stateReason : Option String := none
  createdBy : String
  createdAt : Time
  startedAt : Option Time := none
  finishedAt : Option Time := none

end Vantage
