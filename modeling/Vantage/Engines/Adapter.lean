import Vantage.Domain.Engine
import Vantage.Lib.Effect

/-!
# The contract of engine adapters

Every engine is reached through an adapter, whose methods are called in the
order of the fields. Each of them may change the state and may raise.
-/

namespace Vantage.Engines

structure EngineAdapter (σ : Type) where
  metadata : Effect PyError σ EngineMetadata
  Prepared : Type
  Outcome : Type
  Raw : Type
  healthCheck : Effect PyError σ HealthState
  prepareTarget : EngineRunRequest → Effect PyError σ Prepared
  executeScan : Prepared → Effect PyError σ Outcome
  collectResults : Outcome → Effect PyError σ Raw
  normalizeResults : Raw → EngineRunRequest → Effect PyError σ (List Observation)
  cleanup : Prepared → Effect PyError σ Unit

variable {σ : Type}

/-- The lifecycle of one run once the engine is known to be available. -/
def EngineAdapter.lifecycle (a : EngineAdapter σ) (request : EngineRunRequest) :
    Effect PyError σ (List Observation) := do
  let prepared ← a.prepareTarget request
  let outcome ← a.executeScan prepared
  let raw ← a.collectResults outcome
  let observations ← a.normalizeResults raw request
  a.cleanup prepared
  pure observations

end Vantage.Engines
