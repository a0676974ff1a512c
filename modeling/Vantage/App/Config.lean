import Vantage.Domain.Common
import Vantage.Lib.Effect
import Vantage.Lib.JsonPrinter
import Vantage.Lib.Utf8

/-!
# The configuration file

The choice of a model is kept as JSON in a file whose place the environment
names. What is saved is loaded again as it was.
-/

namespace Vantage

open JsonReader Text

/-- `pathlib.PurePosixPath`. -/
structure PurePath where
  root : String
  parts : List String
deriving DecidableEq

namespace PurePath

/-- `Path(s)`. -/
def ofText (s : String) : PurePath where
  root :=
    if startsWith s "//" && !startsWith s "///" then "//"
    else if startsWith s "/" then "/" else ""
  parts := ((s.toList.splitOn '/').map String.ofList).filter fun part ↦ part ≠ "" ∧ part ≠ "."

/-- `path / s`. -/
def join (path : PurePath) (s : String) : PurePath :=
  let added := ofText s
  if added.root = "" then ⟨path.root, path.parts ++ added.parts⟩ else added

/-- `path.name`. -/
def name (path : PurePath) : String := path.parts.getLast?.getD ""

/-- `str(path)`. -/
def str (path : PurePath) : String :=
  if path.root = "" ∧ path.parts = [] then "." else path.root ++ Text.join "/" path.parts

end PurePath

inductive Node where
  | file (bytes : List UInt8)
  | directory

abbrev FileSystem := PurePath → Option Node

/-- `OSError`. -/
def PyError.osError : PyError := .other "OSError"

/-- What a command finds around it. -/
structure Host where
  environ : String → Option String
  /-- `os.path.expanduser("~")`. -/
  home : String
  /-- Whether a file can be made or opened for writing. -/
  writable : PurePath → Bool
  /-- `path.resolve()`. -/
  resolve : PurePath → PurePath

/-- `os.path.join` with a relative path. -/
def osPathJoin (a b : String) : String :=
  if a = "" ∨ endsWith a "/" = true then a ++ b else a ++ "/" ++ b

def configPath (host : Host) : PurePath :=
  match host.environ "VANTAGE_CONFIG" with
  | some explicit => if explicit = "" then fallback else .ofText explicit
  | none => fallback
where
  fallback : PurePath :=
    let base := orElse (host.environ "XDG_CONFIG_HOME") (osPathJoin host.home ".config")
    ((PurePath.ofText base).join "vantage").join "config.json"

/-- `path.write_bytes`, after the directories above it have been made. -/
def writeBytes (host : Host) (path : PurePath) (bytes : List UInt8) :
    Effect PyError FileSystem Unit := fun fs ↦
  match fs path, host.writable path with
  | some .directory, _ => (.error .osError, fs)
  | _, false => (.error .osError, fs)
  | _, true => (.ok (), Function.update fs path (some (.file bytes)))

theorem writeBytes_cases (host : Host) (path : PurePath) (bytes : List UInt8) (fs : FileSystem) :
    writeBytes host path bytes fs = (.error .osError, fs) ∨
      writeBytes host path bytes fs = (.ok (), Function.update fs path (some (.file bytes))) := by
  unfold writeBytes
  split
  · exact Or.inl rfl
  · exact Or.inl rfl
  · exact Or.inr rfl

/-- The other files stay as they are. -/
theorem keeps_writeBytes {τ : Type} {part : FileSystem → τ} {path : PurePath}
    (h : ∀ fs node, part (Function.update fs path node) = part fs) (host : Host)
    (bytes : List UInt8) : Effect.Keeps part (writeBytes host path bytes) := by
  intro fs
  rcases writeBytes_cases host path bytes fs with hwrite | hwrite
  · rw [hwrite]
  · rw [hwrite]
    exact h fs _

/-- The providers are `none`, `ollama` and `llama_cpp`, but any text is kept. -/
structure AIConfig where
  provider : String := "none"
  model : String := "qwen2.5:7b-instruct"
  modelPath : String := ""
  ollamaUrl : String := "http://127.0.0.1:11434"
deriving DecidableEq

/-- `asdict`. -/
def AIConfig.asdict (c : AIConfig) : Json :=
  .obj [("provider", .str c.provider), ("model", .str c.model), ("model_path", .str c.modelPath),
    ("ollama_url", .str c.ollamaUrl)]

structure VantageConfig where
  ai : AIConfig := {}
deriving DecidableEq

namespace VantageConfig

variable (float : List Char → PyFloat)

/-- The settings in a document; an `ai` that is no dictionary has no `get`. -/
def ofJson (data : Json) : Except PyError VantageConfig :=
  let ai := match data with
    | .obj members => Json.getD members "ai" (.obj [])
    | _ => .obj []
  match ai with
  | .obj ai => .ok {
      ai := {
        provider := (Json.getD ai "provider" (.str "none")).pyStr
        model := (Json.getD ai "model" (.str "qwen2.5:7b-instruct")).pyStr
        modelPath := (Json.getD ai "model_path" (.str "")).pyStr
        ollamaUrl := (Json.getD ai "ollama_url" (.str "http://127.0.0.1:11434")).pyStr } }
  | _ => .error .attributeError

/-- What a text that is no JSON holds are the defaults, but other faults are not caught. -/
def ofText (text : List Char) : Except PyError VantageConfig :=
  match loads float text with
  | .ok data => ofJson data
  | .error .syntaxError => .ok {}
  | .error .tooManyDigits => .error .valueError

/-- `VantageConfig.load` of the file at a path. -/
def read (path : PurePath) (fs : FileSystem) : Except PyError VantageConfig :=
  match fs path with
  | none => .ok {}
  | some .directory => .ok {}
  | some (.file bytes) =>
      match Utf8.decode bytes with
      | none => .error .valueError
      | some text => ofText float text

def load (host : Host) : Effect PyError FileSystem VantageConfig := fun fs ↦
  (read float (configPath host) fs, fs)

def payload (c : VantageConfig) : Json := .obj [("ai", c.ai.asdict)]

def save (host : Host) (c : VantageConfig) : Effect PyError FileSystem Unit :=
  writeBytes host (configPath host) (Utf8.encode (Json.pretty c.payload 0 ++ ['\n']))

end VantageConfig

/-- Environment variables win over the file. -/
def AIConfig.overridden (host : Host) (c : AIConfig) : AIConfig where
  provider := (host.environ "VANTAGE_AI_PROVIDER").getD c.provider
  model := (host.environ "VANTAGE_AI_MODEL").getD c.model
  modelPath := (host.environ "VANTAGE_AI_MODEL_PATH").getD c.modelPath
  ollamaUrl := (host.environ "VANTAGE_AI_OLLAMA_URL").getD c.ollamaUrl

def resolveAiSettings (float : List Char → PyFloat) (host : Host) :
    Effect PyError FileSystem AIConfig := do
  let c ← VantageConfig.load float host
  pure (c.ai.overridden host)

/-! ## Saved and loaded -/

namespace VantageConfig

variable {float : List Char → PyFloat}

theorem loadable_payload (c : VantageConfig) : Json.Loadable float c.payload := by
  simp [payload, AIConfig.asdict, Json.Loadable, Json.LoadableMembers]

theorem ofJson_payload (c : VantageConfig) : ofJson c.payload = .ok c := rfl

theorem read_of_saved (c : VantageConfig) {path : PurePath} {fs : FileSystem}
    (h : fs path = some (.file (Utf8.encode (Json.pretty c.payload 0 ++ ['\n'])))) :
    read float path fs = .ok c := by
  have hblank : JsonText.Blank ['\n'] := by simp [JsonText.Blank, JsonText.isBlank]
  have htext : ofText float (Json.pretty c.payload 0 ++ ['\n']) = .ok c := by
    rw [ofText, Json.loads_pretty (loadable_payload c) hblank]
    exact ofJson_payload c
  rw [read, h]
  simp only [Utf8.decode_encode, htext]

/-- Whatever the fields are, they are loaded as they were saved. -/
theorem read_save (host : Host) (c : VantageConfig) {fs fs' : FileSystem}
    (h : c.save host fs = (.ok (), fs')) : read float (configPath host) fs' = .ok c := by
  rcases writeBytes_cases host (configPath host) (Utf8.encode (Json.pretty c.payload 0 ++ ['\n'])) fs
    with hwrite | hwrite
  · rw [save, hwrite] at h
    exact absurd (congrArg Prod.fst h) (by simp)
  · rw [save, hwrite] at h
    obtain rfl := (Prod.mk.inj h).2
    exact read_of_saved c (Function.update_self ..)

theorem save_of_error (host : Host) (c : VantageConfig) {fs fs' : FileSystem} {e : PyError}
    (h : c.save host fs = (.error e, fs')) : fs' = fs := by
  rcases writeBytes_cases host (configPath host) (Utf8.encode (Json.pretty c.payload 0 ++ ['\n'])) fs
    with hwrite | hwrite
  · rw [save, hwrite] at h
    exact (Prod.mk.inj h).2.symm
  · rw [save, hwrite] at h
    exact absurd (congrArg Prod.fst h) (by simp)

theorem keeps_load (float : List Char → PyFloat) (host : Host) (path : PurePath) :
    Effect.Keeps (read float path) (load float host) := fun _ ↦ rfl

end VantageConfig

end Vantage
