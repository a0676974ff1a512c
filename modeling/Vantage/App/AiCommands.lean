import Vantage.Ai.Analyst
import Vantage.Ai.Models
import Vantage.App.Config
import Vantage.Lib.Revisions

/-!
# The commands that choose a model

`ai select` asks for a model and `ai install` fetches the pinned one; both write
the choice to the configuration. A scan takes its provider from there.
-/

namespace Vantage

open Ai Text

/-- How a command ends that does not return. -/
inductive CliError where
  | exit (code : ℕ)
  /-- The prompt was left. -/
  | abort
  | uncaught (e : PyError)
deriving DecidableEq

def uncaught {σ α : Type} (m : Effect PyError σ α) : Effect CliError σ α := fun s ↦
  ((m s).1.mapError .uncaught, (m s).2)

/-! ## `ai select` -/

structure SelectArgs where
  model : Option String
  provider : Option String
  modelPath : Option String
  ollamaUrl : Option String
  acceptYellow : Bool
  /-- What is typed at the prompt; an empty line is the default, `"1"`. -/
  answer : Option String

/-- The model that was named, or picked at the prompt. -/
def SelectArgs.chosen (args : SelectArgs) : Except CliError String :=
  match args.model with
  | some model => .ok model
  | none =>
      match args.answer with
      | none => .error .abort
      | some choice =>
          if isDigitText (strip choice).toList then
            match parseInt choice with
            | none => .error (.uncaught .valueError)
            | some n =>
                let idx := n - 1
                let green := recommended (some .green)
                if 0 ≤ idx ∧ idx < green.length then
                  match green[idx.toNat]? with
                  | some info => .ok info.id
                  | none => .error (.uncaught .indexError)
                else .error (.exit 2)
          else .ok (strip choice)

/-- Only models of the catalogue, and those under review only on demand. -/
def SelectArgs.vet (args : SelectArgs) (model : String) : Except CliError ModelInfo :=
  match Ai.get model with
  | none => .error (.exit 2)
  | some info =>
      if info.licenseClass = .yellow ∧ args.acceptYellow = false then .error (.exit 2)
      else .ok info

/-- What is not named stays, but for the provider that has not been chosen yet. -/
def SelectArgs.apply (args : SelectArgs) (model : String) (c : AIConfig) : AIConfig where
  model := model
  provider :=
    match args.provider with
    | some provider => lower provider
    | none => if c.provider = "none" then "ollama" else c.provider
  modelPath := args.modelPath.getD c.modelPath
  ollamaUrl := args.ollamaUrl.getD c.ollamaUrl

variable (float : List Char → PyFloat)

def aiSelect (host : Host) (args : SelectArgs) : Effect CliError FileSystem Unit := do
  let model ← Effect.ofExcept args.chosen
  let _ ← Effect.ofExcept (args.vet model)
  let c ← uncaught (VantageConfig.load float host)
  uncaught (VantageConfig.save host { c with ai := args.apply model c.ai })

/-! ## `ai install` -/

structure LockedModel where
  key : String
  ollamaTag : String
  ggufRepo : String
  ggufFile : String
  ggufSha256 : String
  license : String

structure ModelLock where
  default : String
  models : List LockedModel

/-- Only `get` takes a key of its own; a missing one is a `KeyError`. -/
def loadLockedModel (lock : ModelLock) (key : Option String) : Except PyError LockedModel :=
  let resolved := orElse key lock.default
  match lock.models.find? fun m ↦ m.key = resolved with
  | none => .error .keyError
  | some m => .ok m

structure InstallResult where
  ok : Bool
  backend : String
  model : String
  detail : String
  steps : List String

structure InstallArgs where
  backend : String
  modelFrom : Option String
  destDir : String
  /-- The lock file, if it can be read. -/
  lock : Option ModelLock
  enable : Bool

/-- The programs that an installation runs. -/
structure Tools where
  /-- `shutil.which("ollama")`. -/
  hasOllama : Bool
  /-- The exit status and the output of a command. -/
  run : List String → ℕ × String
  /-- `hashlib.sha256(...).hexdigest()`. -/
  sha256 : List UInt8 → String

/-- `ollama pull`, and a look at what `ollama list` says. -/
def pullModel (tools : Tools) (model : LockedModel) : InstallResult :=
  if tools.hasOllama = false then
    { ok := false, backend := "ollama", model := model.ollamaTag
      detail := "Ollama not found on PATH."
      steps := ["Install Ollama (https://ollama.com/download), then re-run 'vantage ai install'."] }
  else
    let pulled := tools.run ["ollama", "pull", model.ollamaTag]
    if pulled.1 ≠ 0 then
      ⟨false, "ollama", model.ollamaTag, "ollama pull failed: " ++ takeChars 200 (strip pulled.2), []⟩
    else
      let listing := (tools.run ["ollama", "list"]).2
      let present := contains listing (String.ofList (cut ':' model.ollamaTag.toList).1)
      { ok := present, backend := "ollama", model := model.ollamaTag
        detail := if present then "Model pulled and present." else "Pulled but not listed; verify."
        steps := [] }

/-- The place of a file, which is in the directory if there is one of that name. -/
def copyTarget (fs : FileSystem) (src dest : PurePath) : PurePath :=
  match fs dest with
  | some .directory => dest.join src.name
  | _ => dest

/-- `shutil.copy2`. -/
def copyFile (host : Host) (src dest : PurePath) : Effect PyError FileSystem Unit := fun fs ↦
  match fs src with
  | some (.file bytes) => writeBytes host (copyTarget fs src dest) bytes fs
  | _ => (.error .osError, fs)

/-- The file in place is checked against the digest that the lock pins. -/
def verifyModel (tools : Tools) (model : LockedModel) (dest : PurePath) :
    Option Node → Except PyError InstallResult
  | none => .ok {
      ok := false, backend := "llama_cpp", model := model.ggufFile
      detail := "GGUF not present."
      steps := [
        "Obtain " ++ model.ggufFile ++ " from " ++ model.ggufRepo ++ " (license " ++ model.license ++
          ").",
        "Place it at " ++ dest.str ++ " or pass --from <path> (air-gapped installs stage it).",
        "Then re-run 'vantage ai install --backend llama_cpp'."] }
  | some node =>
      let placed : InstallResult :=
        ⟨true, "llama_cpp", dest.str, "GGUF present and verified.", []⟩
      if model.ggufSha256 ≠ "" ∧ startsWith model.ggufSha256 "REPLACE_" = false then
        match node with
        | .directory => .error .osError
        | .file bytes =>
            let digest := tools.sha256 bytes
            if digest ≠ model.ggufSha256 then
              .ok ⟨false, "llama_cpp", model.ggufFile,
                "SHA-256 mismatch: expected " ++ takeChars 12 model.ggufSha256 ++ "…, got " ++
                  takeChars 12 digest ++ "…", []⟩
            else .ok placed
      else .ok placed

def InstallArgs.dest (args : InstallArgs) (model : LockedModel) : PurePath :=
  (PurePath.ofText args.destDir).join model.ggufFile

/-- A file that was brought along is copied, if it is not in place already. -/
def stageModel (host : Host) (modelFrom : String) (dest : PurePath) :
    Effect PyError FileSystem Unit :=
  let src := PurePath.ofText modelFrom
  if modelFrom ≠ "" ∧ host.resolve src ≠ host.resolve dest then copyFile host src dest else pure ()

def placeModel (host : Host) (tools : Tools) (args : InstallArgs) (model : LockedModel) :
    Effect PyError FileSystem InstallResult := do
  let dest := args.dest model
  let modelFrom := args.modelFrom.getD ""
  let fs ← Effect.get
  if modelFrom ≠ "" ∧ fs (.ofText modelFrom) = none then
    pure ⟨false, "llama_cpp", model.ggufFile, (PurePath.ofText modelFrom).str ++ " not found", []⟩
  else do
    stageModel host modelFrom dest
    let fs ← Effect.get
    Effect.ofExcept (verifyModel tools model dest (fs dest))

/-- `auto` is Ollama where there is one. -/
def InstallArgs.chosenBackend (args : InstallArgs) (tools : Tools) : String :=
  if args.backend = "auto" then if tools.hasOllama then "ollama" else "llama_cpp" else args.backend

def installModel (host : Host) (tools : Tools) (args : InstallArgs) (lock : ModelLock) :
    Effect PyError FileSystem InstallResult := do
  let model ← Effect.ofExcept (loadLockedModel lock none)
  if args.chosenBackend tools = "ollama" then pure (pullModel tools model)
  else placeModel host tools args model

/-- The configuration that uses the installed model. -/
def InstallResult.apply (result : InstallResult) (locked : LockedModel) (c : AIConfig) : AIConfig :=
  { c with
    provider := result.backend
    model := if result.backend = "ollama" then locked.ollamaTag else "qwen2.5:7b-instruct"
    modelPath := if result.backend = "llama_cpp" then result.model else c.modelPath }

def aiInstall (host : Host) (tools : Tools) (args : InstallArgs) :
    Effect CliError FileSystem Unit :=
  match args.lock with
  | none => Effect.raise (.exit 2)
  | some lock =>
      match loadLockedModel lock none with
      | .error _ => Effect.raise (.exit 2)
      | .ok locked => do
          let result ← uncaught (installModel host tools args lock)
          if result.ok = false then Effect.raise (.exit 1)
          else if args.enable then do
            let c ← uncaught (VantageConfig.load float host)
            uncaught (VantageConfig.save host { c with ai := result.apply locked c.ai })
          else pure ()

/-! ## The provider of a scan -/

/-- The arguments of the constructors of the providers. -/
inductive ProviderChoice where
  | llamaCpp (modelPath modelId modelLicense : String)
  | ollama (modelId baseUrl modelLicense : String)
deriving DecidableEq

def AIConfig.providerChoice (c : AIConfig) : Option ProviderChoice :=
  let kind := lower c.provider
  let lic := ((Ai.get c.model).map ModelInfo.licenseSpdx).getD "unknown"
  if kind = "llama_cpp" then
    if c.modelPath = "" then none else some (.llamaCpp c.modelPath c.model lic)
  else if kind = "ollama" then some (.ollama c.model c.ollamaUrl lic)
  else none

def buildAiProviderFromEnv (host : Host) : Effect PyError FileSystem (Option ProviderChoice) := do
  let c ← resolveAiSettings float host
  pure c.providerChoice

/-! ## What a command does to the settings -/

/-- The model that the lock file pins. -/
def InstallArgs.locked (args : InstallArgs) : Option LockedModel :=
  args.lock.bind fun lock ↦ (loadLockedModel lock none).toOption

/-- What an installation that succeeds reports. -/
def InstallArgs.installs (args : InstallArgs) (tools : Tools) (model : LockedModel) :
    InstallResult :=
  if args.chosenBackend tools = "ollama" then
    ⟨true, "ollama", model.ollamaTag, "Model pulled and present.", []⟩
  else ⟨true, "llama_cpp", (args.dest model).str, "GGUF present and verified.", []⟩

inductive Command where
  | select (args : SelectArgs)
  | install (tools : Tools) (args : InstallArgs)

/-- A command where it is run. -/
structure CommandRun where
  host : Host
  command : Command

namespace CommandRun

def conduct (r : CommandRun) : Effect CliError FileSystem Unit :=
  match r.command with
  | .select args => aiSelect float r.host args
  | .install tools args => aiInstall float r.host tools args

/-- The settings after a run that returns. -/
def revise (r : CommandRun) (c : VantageConfig) : VantageConfig :=
  match r.command with
  | .select args =>
      match args.chosen with
      | .ok model => { c with ai := args.apply model c.ai }
      | .error _ => c
  | .install tools args =>
      match args.locked with
      | some locked =>
          if args.enable then { c with ai := (args.installs tools locked).apply locked c.ai } else c
      | none => c

/-- The places where the run may put a model file. -/
def stages (r : CommandRun) : List PurePath :=
  match r.command with
  | .select _ => []
  | .install _ args =>
      match args.locked with
      | none => []
      | some locked =>
          [args.dest locked,
            (args.dest locked).join (PurePath.ofText (args.modelFrom.getD "")).name]

end CommandRun

section Keeps

open Effect

variable {float} {σ τ α : Type} {part : σ → τ}

theorem keeps_uncaught {m : Effect PyError σ α} (h : Keeps part m) : Keeps part (uncaught m) :=
  fun s ↦ h s

theorem uncaught_of_ok {m : Effect PyError σ α} {a : α} {s s' : σ}
    (h : uncaught m s = (.ok a, s')) : m s = (.ok a, s') := by
  rcases hrun : m s with ⟨result, s₁⟩
  rw [uncaught, hrun] at h
  cases result with
  | error e => exact absurd (congrArg Prod.fst h) (by simp [Except.mapError])
  | ok b =>
      obtain ⟨hb, rfl⟩ := Prod.mk.inj h
      obtain rfl := Except.ok.inj hb
      rfl

theorem read_update_of_ne {path place : PurePath} (h : place ≠ path) (fs : FileSystem)
    (node : Option Node) : VantageConfig.read float path (Function.update fs place node) =
      VantageConfig.read float path fs := by
  rw [VantageConfig.read, VantageConfig.read, Function.update_of_ne h.symm]

/-- Loading, changing and saving: the settings of the file are changed, and those of another
file are not. -/
theorem revises_settings (host : Host) (path : PurePath) (g : VantageConfig → VantageConfig) :
    Revises (VantageConfig.read float path) (if configPath host = path then Except.map g else id)
      (uncaught (VantageConfig.load float host) >>= fun c ↦
        uncaught (VantageConfig.save host (g c))) := by
  refine (keeps_uncaught (VantageConfig.keeps_load float host path)).bind_revises ?_
  intro fs c fs' hload
  have hread := uncaught_of_ok hload
  obtain ⟨hc, rfl⟩ := Prod.mk.inj hread
  rw [uncaught]
  rcases hsave : VantageConfig.save host (g c) fs with ⟨result, fs₁⟩
  cases result with
  | error e =>
      rw [VantageConfig.save_of_error host (g c) hsave]
      rfl
  | ok u =>
      change VantageConfig.read float path fs₁ = (if configPath host = path then Except.map g else id)
        (VantageConfig.read float path fs)
      split_ifs with hpath
      · rw [← hpath, VantageConfig.read_save host (g c) hsave, hc]
        rfl
      · rcases writeBytes_cases host (configPath host) _ fs with hwrite | hwrite
        · rw [VantageConfig.save, hwrite] at hsave
          exact absurd (congrArg Prod.fst hsave) (by simp)
        · rw [VantageConfig.save, hwrite] at hsave
          obtain rfl := (Prod.mk.inj hsave).2
          exact read_update_of_ne hpath fs _

theorem eq_installs_of_pullModel {tools : Tools} {args : InstallArgs} {model : LockedModel}
    (hbackend : args.chosenBackend tools = "ollama") (h : (pullModel tools model).ok = true) :
    pullModel tools model = args.installs tools model := by
  rw [InstallArgs.installs, if_pos hbackend]
  rw [pullModel] at h ⊢
  by_cases htool : tools.hasOllama = false
  · rw [if_pos htool] at h
    exact absurd h (by simp)
  · rw [if_neg htool] at h ⊢
    simp only at h ⊢
    by_cases hstatus : (tools.run ["ollama", "pull", model.ollamaTag]).1 ≠ 0
    · rw [if_pos hstatus] at h
      exact absurd h (by simp)
    · rw [if_neg hstatus] at h ⊢
      simp only at h
      simp only [h, if_true]

theorem eq_of_verifyModel {tools : Tools} {model : LockedModel} {dest : PurePath}
    {node : Option Node} {result : InstallResult}
    (h : verifyModel tools model dest node = .ok result) (hok : result.ok = true) :
    result = ⟨true, "llama_cpp", dest.str, "GGUF present and verified.", []⟩ := by
  unfold verifyModel at h
  split at h
  · obtain rfl := Except.ok.inj h
    exact absurd hok (by simp)
  · simp only at h
    split at h
    · split at h
      · exact absurd h (by simp)
      · split at h
        · obtain rfl := Except.ok.inj h
          exact absurd hok (by simp)
        · exact (Except.ok.inj h).symm
    · exact (Except.ok.inj h).symm

/-- An installation that succeeds reports where the model is. -/
theorem returns_installModel (host : Host) (tools : Tools) {args : InstallArgs} {lock : ModelLock}
    {model : LockedModel} (hmodel : loadLockedModel lock none = .ok model) :
    Returns (installModel host tools args lock) fun result ↦
      result.ok = true → result = args.installs tools model := by
  rw [installModel, hmodel]
  change Returns (if args.chosenBackend tools = "ollama" then pure (pullModel tools model)
    else placeModel host tools args model) _
  by_cases hbackend : args.chosenBackend tools = "ollama"
  · rw [if_pos hbackend]
    exact .pure (eq_installs_of_pullModel hbackend)
  · rw [if_neg hbackend, InstallArgs.installs, if_neg hbackend]
    refine (Returns.trivial _).bind fun fs _ ↦ ?_
    split_ifs with hmissing
    · exact .pure fun h ↦ absurd h (by simp)
    · refine (Returns.trivial _).bind fun _ _ ↦ (Returns.trivial _).bind fun fs' _ ↦ ?_
      exact .ofExcept fun result ↦ eq_of_verifyModel

/-- The settings are not touched when the model is put elsewhere. -/
theorem keeps_stageModel {path dest : PurePath} {modelFrom : String} (hdest : dest ≠ path)
    (hname : dest.join (PurePath.ofText modelFrom).name ≠ path) (host : Host) :
    Keeps (VantageConfig.read float path) (stageModel host modelFrom dest) := by
  unfold stageModel
  simp only
  split_ifs with hcopy
  · intro fs
    unfold copyFile
    split
    · have htarget : copyTarget fs (PurePath.ofText modelFrom) dest ≠ path := by
        unfold copyTarget
        split
        · exact hname
        · exact hdest
      exact keeps_writeBytes (read_update_of_ne htarget) host _ fs
    · rfl
  · exact .pure ()

theorem keeps_installModel {path : PurePath} {args : InstallArgs} {lock : ModelLock}
    {model : LockedModel} (hmodel : loadLockedModel lock none = .ok model)
    (hdest : args.dest model ≠ path)
    (hname : (args.dest model).join (PurePath.ofText (args.modelFrom.getD "")).name ≠ path)
    (host : Host) (tools : Tools) :
    Keeps (VantageConfig.read float path) (installModel host tools args lock) := by
  rw [installModel, hmodel]
  change Keeps _ (if args.chosenBackend tools = "ollama" then pure (pullModel tools model)
    else placeModel host tools args model)
  split_ifs with hbackend
  · exact .pure _
  · refine Keeps.get.bind fun fs ↦ ?_
    split_ifs with hmissing
    · exact .pure _
    · refine (keeps_stageModel hdest hname host).bind fun _ ↦ Keeps.get.bind fun fs' ↦ ?_
      exact .ofExcept _

theorem revises_aiSelect (host : Host) (args : SelectArgs) (path : PurePath) :
    Revises (VantageConfig.read float path)
      (if configPath host = path then Except.map (CommandRun.mk host (.select args)).revise else id)
      (aiSelect float host args) := by
  refine (Keeps.ofExcept args.chosen).bind_revises fun fs model fs' hmodel ↦ ?_
  have hchosen : args.chosen = .ok model := congrArg Prod.fst hmodel
  have hrevise : (CommandRun.mk host (.select args)).revise =
      fun c ↦ { c with ai := args.apply model c.ai } := by
    funext c
    simp only [CommandRun.revise, hchosen]
  rw [hrevise]
  exact Revises.after (.ofExcept _) (fun _ ↦ revises_settings host path _) fs'

theorem map_id_or (c : Prop) [Decidable c] {f : VantageConfig → VantageConfig}
    (h : ∀ v, f v = v) (x : Except PyError VantageConfig) :
    (if c then Except.map f else id) x = x := by
  have hmap : Except.map f x = x := by
    cases x with
    | error e => rfl
    | ok v => exact congrArg Except.ok (h v)
  split_ifs
  · exact hmap
  · rfl

theorem revises_aiInstall (host : Host) (tools : Tools) (args : InstallArgs) {path : PurePath}
    (h : path ∉ (CommandRun.mk host (.install tools args)).stages) :
    Revises (VantageConfig.read float path)
      (if configPath host = path then
        Except.map (CommandRun.mk host (.install tools args)).revise else id)
      (aiInstall float host tools args) := by
  rcases hlock : args.lock with _ | lock
  · rw [aiInstall, hlock]
    exact .raise _
  rcases hlocked : loadLockedModel lock none with e | locked
  · rw [aiInstall, hlock]
    simp only [hlocked]
    exact .raise _
  have hmodel : args.locked = some locked := by
    rw [InstallArgs.locked, hlock, Option.bind_some, hlocked]
    rfl
  simp only [CommandRun.stages, hmodel, List.mem_cons, List.not_mem_nil, or_false, not_or] at h
  have hkeeps : Keeps (VantageConfig.read float path) (installModel host tools args lock) :=
    keeps_installModel hlocked (Ne.symm h.1) (Ne.symm h.2) host tools
  rw [aiInstall, hlock]
  simp only [hlocked]
  refine (keeps_uncaught hkeeps).bind_revises fun fs result fs' hresult ↦ ?_
  have hinstalls := returns_installModel host tools hlocked fs result fs' (uncaught_of_ok hresult)
  by_cases hok : result.ok = false
  · rw [if_pos hok]
    exact Revises.raise _ fs'
  · have hrevise : (CommandRun.mk host (.install tools args)).revise = fun c ↦
        if args.enable then { c with ai := result.apply locked c.ai } else c := by
      funext c
      simp only [CommandRun.revise, hmodel, hinstalls (by simpa using hok)]
    rw [if_neg hok, hrevise]
    by_cases henable : args.enable = true
    · simp only [if_pos henable]
      exact revises_settings host path _ fs'
    · simp only [if_neg henable]
      exact (map_id_or _ (fun _ ↦ rfl) _).symm

theorem revises_conduct {r : CommandRun} {path : PurePath} (h : path ∉ r.stages) :
    Revises (VantageConfig.read float path)
      (if configPath r.host = path then Except.map r.revise else id) (r.conduct float) := by
  obtain ⟨host, command⟩ := r
  cases command with
  | select args => exact revises_aiSelect host args path
  | install tools args => exact revises_aiInstall host tools args h

end Keeps

/-! ## Histories of commands -/

open Effect

def plainHost : Host where
  environ _ := none
  home := "/home/op"
  writable _ := true
  resolve path := path

def demoSelect : CommandRun where
  host := plainHost
  command := .select ⟨some "llama3.1:8b-instruct", none, none, none, true, none⟩

def demoInstall : CommandRun where
  host := plainHost
  command := .install ⟨true, fun _ ↦ (0, "qwen2.5:7b-instruct"), fun _ ↦ ""⟩
    ⟨"auto", some "/media/model.gguf", "/opt/vantage/models",
      some ⟨"q", [⟨"q", "qwen2.5:7b-instruct", "Qwen", "q.gguf", "REPLACE_", "Apache-2.0"⟩]⟩, true⟩

/-- The run has picked the model: one of the catalogue, and one under review only on demand, or
the one that the lock file pins. -/
def CommandRun.Picks (r : CommandRun) (model : String) : Prop :=
  match r.command with
  | .select args => args.chosen = .ok model ∧ ∃ info, Ai.get model = some info ∧
      (info.licenseClass = .yellow → args.acceptYellow = true)
  | .install _ args => args.enable = true ∧ ∃ locked, args.locked = some locked ∧
      locked.ollamaTag = model

def Accounted (rs : List CommandRun) (model : String) : Prop :=
  model = defaultModelId ∨ ∃ r ∈ rs, r.Picks model

/-- What went through the gate of `ai select`. -/
theorem admitted_of_aiSelect {host : Host} {args : SelectArgs} {fs fs' : FileSystem}
    (h : aiSelect float host args fs = (.ok (), fs')) {model : String}
    (hchosen : args.chosen = .ok model) : ∃ info, Ai.get model = some info ∧
      (info.licenseClass = .yellow → args.acceptYellow = true) := by
  obtain ⟨model', fs₁, hmodel, hrest⟩ := exists_of_bind_ok h
  obtain rfl : model = model' :=
    Except.ok.inj (hchosen.symm.trans (congrArg Prod.fst hmodel))
  obtain ⟨info', fs₂, hinfo, -⟩ := exists_of_bind_ok hrest
  have hvet : args.vet model = .ok info' := congrArg Prod.fst hinfo
  unfold SelectArgs.vet at hvet
  split at hvet
  · exact absurd hvet (by simp)
  · next info hget =>
      refine ⟨info, hget, fun hyellow ↦ ?_⟩
      by_contra hno
      rw [if_pos ⟨hyellow, Bool.eq_false_iff.mpr hno⟩] at hvet
      exact absurd hvet (by simp)

theorem accounted_revise {rs : List CommandRun} {r : CommandRun} (hr : r ∈ rs)
    (hok : ∃ fs a fs', r.conduct float fs = (.ok a, fs')) {c : VantageConfig}
    (h : Accounted rs c.ai.model) : Accounted rs (r.revise c).ai.model := by
  obtain ⟨fs, ⟨⟩, fs', hrun⟩ := hok
  obtain ⟨host, command⟩ := r
  cases command with
  | select args =>
      cases hchosen : args.chosen with
      | error e => simpa only [CommandRun.revise, hchosen] using h
      | ok model =>
          simp only [CommandRun.revise, hchosen]
          exact Or.inr ⟨_, hr, hchosen, admitted_of_aiSelect float hrun hchosen⟩
  | install tools args =>
      cases hlocked : args.locked with
      | none => simpa only [CommandRun.revise, hlocked] using h
      | some locked =>
          simp only [CommandRun.revise, hlocked]
          by_cases henable : args.enable = true
          · rw [if_pos henable]
            by_cases hbackend : args.chosenBackend tools = "ollama"
            · rw [InstallArgs.installs, if_pos hbackend]
              exact Or.inr ⟨_, hr, henable, locked, hlocked, rfl⟩
            · rw [InstallArgs.installs, if_neg hbackend]
              exact Or.inl rfl
          · rw [if_neg henable]
            exact h

def ProviderChoice.modelId : ProviderChoice → String
  | .llamaCpp _ modelId _ => modelId
  | .ollama modelId _ _ => modelId

def ProviderChoice.modelLicense : ProviderChoice → String
  | .llamaCpp _ _ modelLicense => modelLicense
  | .ollama _ _ modelLicense => modelLicense

theorem modelId_of_providerChoice {c : AIConfig} {p : ProviderChoice}
    (h : c.providerChoice = some p) : p.modelId = c.model ∧
      p.modelLicense = ((Ai.get c.model).map ModelInfo.licenseSpdx).getD "unknown" := by
  unfold AIConfig.providerChoice at h
  simp only at h
  split_ifs at h
  all_goals
    obtain rfl := Option.some.inj h
    exact ⟨rfl, rfl⟩

theorem buildAiProvider_of_read {host : Host} {fs : FileSystem} {c : VantageConfig}
    (h : VantageConfig.read float (configPath host) fs = .ok c) :
    buildAiProviderFromEnv float host fs = (.ok (c.ai.overridden host).providerChoice, fs) := by
  have hload : VantageConfig.load float host fs = (.ok c, fs) := Prod.ext h rfl
  have hresolve : resolveAiSettings float host fs = (.ok (c.ai.overridden host), fs) :=
    bind_of_ok hload _
  exact bind_of_ok hresolve _

end Vantage
