import Vantage.Domain.Common
import Vantage.Lib.Dict

/-!
# The catalogue of local language models

Models are license-classed like everything else; the ones under review are not
offered by default.
-/

namespace Vantage.Ai

structure ModelInfo where
  id : String
  licenseSpdx : String
  licenseClass : LicenseClass
deriving DecidableEq

def catalog : List ModelInfo :=
  [⟨"qwen2.5:7b-instruct", "Apache-2.0", .green⟩,
   ⟨"qwen2.5:14b-instruct", "Apache-2.0", .green⟩,
   ⟨"qwen3:8b", "Apache-2.0", .green⟩,
   ⟨"mistral:7b-instruct", "Apache-2.0", .green⟩,
   ⟨"phi4-mini", "MIT", .green⟩,
   ⟨"qwen2.5:3b-instruct", "LicenseRef-Qwen", .yellow⟩,
   ⟨"llama3.1:8b-instruct", "LicenseRef-Llama-3.1-Community", .yellow⟩,
   ⟨"gemma2:9b-instruct", "LicenseRef-Gemma", .yellow⟩]

/-- `BY_ID`. -/
def byId : Dict String ModelInfo := catalog.foldl (fun d m ↦ d.set m.id m) Dict.empty

def defaultModelId : String := "qwen2.5:7b-instruct"

def recommended (licenseClass : Option LicenseClass) : List ModelInfo :=
  match licenseClass with
  | none => catalog
  | some c => catalog.filter fun m ↦ m.licenseClass = c

def get (modelId : String) : Option ModelInfo := byId.get? modelId

theorem byId_entries : byId.entries = catalog.map fun m ↦ (m.id, m) := by decide

/-- What is looked up is in the catalogue under the name that was looked up. -/
theorem get_eq_some_iff {modelId : String} {info : ModelInfo} :
    get modelId = some info ↔ info ∈ catalog ∧ info.id = modelId := by
  rw [get, Dict.get?_eq_some_iff, byId_entries, List.mem_map]
  constructor
  · rintro ⟨m, hm, heq⟩
    obtain ⟨rfl, rfl⟩ := Prod.mk.inj heq
    exact ⟨hm, rfl⟩
  · rintro ⟨hmem, rfl⟩
    exact ⟨info, hmem, rfl⟩

theorem get_of_mem {info : ModelInfo} (h : info ∈ catalog) : get info.id = some info :=
  get_eq_some_iff.mpr ⟨h, rfl⟩

/-- A recommended model is one of its class. -/
theorem mem_recommended_iff {licenseClass : LicenseClass} {info : ModelInfo} :
    info ∈ recommended (some licenseClass) ↔
      info ∈ catalog ∧ info.licenseClass = licenseClass := by
  simp [recommended]

theorem get_default : get defaultModelId = some ⟨"qwen2.5:7b-instruct", "Apache-2.0", .green⟩ := by
  decide

end Vantage.Ai
