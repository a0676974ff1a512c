import Vantage.App.AiCommands
import Vantage.App.ControlPlane
import Vantage.App.Outside
import Vantage.Engines.Detect
import Vantage.Persistence.Columns
import Vantage.Scan.ConfirmedOnly

/-!
# The scan command

The application is built, one scan is run over an empty database, and its report
is put out. A pipeline acts on the exit code.
-/

namespace Vantage

open Adapters Ai Engines Findings Governance Persistence Scan Scope Text

/-! ## The sandbox -/

/-- `FakeSandboxRunner()`. -/
def fakeRunner : SandboxRunner where
  available := pure true
  run _ := pure { exitCode := some 0, timedOut := false, stdout := [], stderr := [] }

inductive Sandbox where
  | docker
  | local_
  | fake
deriving DecidableEq

/-- `select_runner`; every other mode is `auto`. -/
def selectRunner (w : World) (mode : String) (h : History) : Sandbox :=
  let mode := lower mode
  if mode = "docker" then .docker
  else if mode = "local" then .local_
  else if mode = "fake" then .fake
  else if w.which h "docker" then .docker
  else .local_

def Sandbox.runner (w : World) (programs : LocalHost) : Sandbox → SandboxRunner
  | .docker => DockerSandboxRunner.runner w {}
  | .local_ => LocalSubprocessRunner.runner w { host := programs }
  | .fake => fakeRunner

/-! ## The command line and what it finds -/

structure ScanArgs where
  url : List String
  profile : String := "standard"
  kind : String := "unknown"
  authorize : Bool := false
  fmt : String := "markdown"
  out : Option String := none
  noOss : Bool := false
  sandbox : String := "auto"
  ai : Bool := false
  confirmedOnly : Bool := false
  url_ne : url ≠ []

/-- The files that are read, the libraries and the machine. -/
structure Installation where
  world : World
  host : Host
  programs : LocalHost
  policy : LicensePolicy
  manifests : List EngineManifest
  lock : EngineLock
  /-- The model behind a choice. -/
  provider : ProviderChoice → LLMProvider History
  /-- The text of a URL that the type `HttpUrl` accepts. -/
  httpUrl : String → Option String
  newIds : History → (ℕ → String) × History
  digests : Digests
  real : ℚ → PyFloat
  float : List Char → PyFloat
  dumps : Dumps
  newIds_injective : ∀ h, Function.Injective (newIds h).1
  newIds_reads : ∀ h, Effect.Appended Reads h (newIds h).2
  /-- A model is not asked through the network of the scan. -/
  available_silent : ∀ choice h, ((provider choice).available h).2 = h
  complete_silent : ∀ choice findings h, ((provider choice).complete findings h).2 = h
  real_reread : ∀ q, Json.Reread float (real q)

/-- What the command can change. -/
structure Machine where
  files : FileSystem
  world : History
  /-- The latest text comes first. -/
  console : List String

section Lift

variable {ε α : Type}

def onFiles (m : Effect ε FileSystem α) : Effect ε Machine α := fun s ↦
  ((m s.files).1, { s with files := (m s.files).2 })

def onWorld (m : Effect ε History α) : Effect ε Machine α := fun s ↦
  ((m s.world).1, { s with world := (m s.world).2 })

def echo (text : String) : Effect ε Machine Unit :=
  Effect.modify fun s ↦ { s with console := text :: s.console }

end Lift

/-! ## `scan_run` -/

def scanProfiles : List ScanProfile := [.passive, .standard, .deep]

def applicationKinds : List ApplicationKind :=
  [.unknown, .traditionalWeb, .spa, .restApi, .graphqlApi, .soapApi, .websocket]

/-- `ScanProfile(profile.lower())`. -/
def profileOf (profile : String) : Option ScanProfile :=
  scanProfiles.find? (·.value = lower profile)

def kindOf (kind : String) : Except PyError ApplicationKind :=
  if kind = "" then .ok .unknown
  else
    match applicationKinds.find? (·.value = lower kind) with
    | some k => .ok k
    | none => .error .valueError

variable (inst : Installation) (args : ScanArgs)

def noModelWarning : String :=
  "--ai set but no on-prem AI model is configured. Run 'vantage ai select' to choose one (or set " ++
    "VANTAGE_AI_PROVIDER=ollama|llama_cpp). Continuing without AI."

/-- The provider, if one is wanted and configured. -/
def chooseProvider : Effect CliError Machine (Option ProviderChoice) :=
  if args.ai then do
    let choice ← uncaught (onFiles (buildAiProviderFromEnv inst.float inst.host))
    if choice = none then echo noModelWarning
    pure choice
  else pure none

/-- Which of the tools with an adapter are installed; looked for in local mode only. -/
def detectInstalled : Action (Option (List String)) :=
  if lower args.sandbox = "local" then do
    let detections ← detectEngines inst.world inst.programs (ossAdapters.map fun a ↦ a.engine.id) []
    pure (some ((detections.filter Detect.Detection.installed).map Detect.Detection.engineId))
  else pure none

/-- The orchestrator that `VantageApp.build` puts together around a registry. -/
def Installation.orchestrator (reg : EngineRegistry History) (choice : Option ProviderChoice) :
    Orchestrator History where
  env :=
    { clock := fun h ↦ (inst.world.clock h, .clock (inst.world.clock h) :: h)
      newIds := inst.newIds
      regex := inst.world.regex
      loads := inst.world.loads
      digests := inst.digests
      evidenceVariable := inst.host.environ "VANTAGE_EVIDENCE_KEY" }
  registry := reg
  risk f := (RiskEngine.apply f).riskScore
  proberFactory := some fun target ↦ do
    let now ← Effect.total fun h ↦ (inst.world.clock h, .clock (inst.world.clock h) :: h)
    pure ((HttpProber.ofTarget target now).prober inst.world)
  analyst := (choice.map inst.provider).getD nullProvider

/-- Loading the registry and binding its native adapters, and then looking for the tools. -/
def beforeBinding : Action (Option (List String)) := do
  let bound := do
    let loaded ← EngineRegistry.load History inst.policy inst.manifests inst.lock
    nativeAdapters.foldlM (bindNative inst.world) loaded
  Effect.ofExcept (bound.map fun _ ↦ ())
  detectInstalled inst args

/-- The registry that is built when the tools have been looked for. -/
def registryOf (sandbox : Sandbox) (detected : Option (List String)) :
    Except PyError (EngineRegistry History) :=
  VantageApp.build inst.world (sandbox.runner inst.world inst.programs) inst.policy inst.manifests
    inst.lock ⟨!args.noOss, detected.map fun l engineId ↦ l.contains engineId⟩

theorem cliVerifier_ne : "cli --authorize" ≠ "" := by decide

/-- The target; its fields are checked when identifier and time have been drawn. -/
def cliTarget (kind : ApplicationKind) (id : String) (verifiedAt createdAt : Time) :
    Except PyError Target :=
  match args.url.mapM inst.httpUrl with
  | none => .error .validationError
  | some baseUrls =>
      let name := args.url.head args.url_ne
      if h : (1 ≤ name.length ∧ name.length ≤ 200) ∧ baseUrls ≠ [] then
        .ok { id := id
              tenantId := "cli"
              name := name
              baseUrls := baseUrls
              kind := kind
              scopeRules := []
              rateLimits := Api.defaultRateLimits
              authorization := some
                { method := .signedAttestation
                  verifiedAt := verifiedAt
                  verifiedBy := "cli --authorize"
                  verifiedBy_ne := cliVerifier_ne }
              createdAt := createdAt
              name_ok := h.1
              baseUrls_ne := h.2 }
      else .error .validationError

/-- The target with its default rules. -/
def enlist : Action Target := do
  let kind ← Effect.ofExcept (kindOf args.kind)
  let verifiedAt ← inst.world.utcnow
  let ids ← Effect.total inst.newIds
  let createdAt ← inst.world.utcnow
  let target ← Effect.ofExcept (cliTarget inst args kind (ids 0) verifiedAt createdAt)
  let rules ← Effect.ofExcept (defaultScopeRulesFor target.baseUrls)
  pure { target with scopeRules := rules }

def cliScan (profile : ScanProfile) (target : Target) (id : String) (createdAt : Time) :
    Vantage.Scan where
  id := id
  tenantId := "cli"
  targetId := target.id
  policy := { profile := profile }
  createdBy := "cli"
  createdAt := createdAt

/-- From the built application to the report; the database is kept in memory. -/
def runScan (o : Orchestrator History) (profile : ScanProfile) : Action ScanReport := do
  let target ← enlist inst args
  let ids ← Effect.total inst.newIds
  let createdAt ← inst.world.utcnow
  fun h ↦
    let ended := o.run (cliScan profile target (ids 0) createdAt) target ⟨.empty, h⟩
    (ended.1, ended.2.world)

def conductScan (profile : ScanProfile) (choice : Option ProviderChoice) : Action ScanReport := do
  let h ← Effect.get
  let detected ← beforeBinding inst args
  match registryOf inst args (selectRunner inst.world args.sandbox h) detected with
  | .error e => Effect.raise e
  | .ok reg => runScan inst args (inst.orchestrator reg choice) profile

/-- The report that is put out, and its text. -/
def prepareReport (profile : ScanProfile) : Effect CliError Machine (ScanReport × String) := do
  let choice ← chooseProvider inst args
  let whole ← uncaught (onWorld (conductScan inst args profile choice))
  let shown := if args.confirmedOnly then filterConfirmed whole else whole
  let text ← uncaught (Effect.ofExcept (Findings.render inst.real inst.dumps shown args.fmt))
  pure (shown, text)

def deliverReport (text : String) : Effect PyError Machine Unit :=
  match args.out with
  | none => echo text
  | some path =>
      if path = "" then echo text
      else do
        onFiles (writeBytes inst.host (.ofText path) (Utf8.encode text.toList))
        echo ("Wrote " ++ args.fmt ++ " report to " ++ path)

/-- `counts[key]`. -/
def countOf (findings : List UnifiedFinding) (key : String) : ℕ :=
  ((summarize findings).lookup key).getD 0

def refuseScan (text : String) : Effect CliError Machine Unit := do
  echo text
  Effect.raise (.exit 2)

def scanRun : Effect CliError Machine Unit :=
  if !args.authorize then
    refuseScan ("Refusing to scan without --authorize. Only test systems you own or are " ++
      "explicitly authorized to assess.")
  else
    match profileOf args.profile with
    | none => refuseScan ("Unknown profile: " ++ args.profile)
    | some profile => do
        let (shown, text) ← prepareReport inst args profile
        uncaught (deliverReport inst args text)
        if countOf shown.findings "critical" ≠ 0 ∨ countOf shown.findings "high" ≠ 0 then
          Effect.raise (.exit 1)
        else pure ()

/-- What the shell sees; an exception ends the process with 1. -/
def exitCode : Except CliError Unit → ℕ
  | .ok () => 0
  | .error (.exit code) => code
  | .error .abort => 1
  | .error (.uncaught _) => 1

/-! ## What counts as alarming -/

def Severe (f : UnifiedFinding) : Prop := f.severity = .critical ∨ f.severity = .high

theorem countOf_value (findings : List UnifiedFinding) (sev : Severity) :
    countOf findings sev.value = findings.countP (·.severity = sev) := by
  cases sev <;> rfl

theorem counts_iff {findings : List UnifiedFinding} :
    (countOf findings "critical" ≠ 0 ∨ countOf findings "high" ≠ 0) ↔
      ∃ f ∈ findings, Severe f := by
  have hcount : ∀ sev : Severity, countOf findings sev.value ≠ 0 ↔
      ∃ f ∈ findings, f.severity = sev := by
    intro sev
    rw [countOf_value, ← Nat.pos_iff_ne_zero, List.countP_pos_iff]
    simp only [decide_eq_true_eq]
  rw [show countOf findings "critical" ≠ 0 ↔ _ from hcount .critical,
    show countOf findings "high" ≠ 0 ↔ _ from hcount .high]
  simp only [Severe, and_or_left, exists_or]

theorem sarifLevel_eq_error_iff {sev : Severity} :
    sarifLevel sev = "error" ↔ sev = .critical ∨ sev = .high := by
  cases sev <;> decide

/-- A result of the document is an error exactly when a finding it describes is severe. -/
theorem exists_error_iff {doc : Json} {findings : List UnifiedFinding} (h : Describes doc findings) :
    (∃ result ∈ readResults doc, member result "level" = .str "error") ↔
      ∃ f ∈ findings, Severe f := by
  have hlevels : (readResults doc).map (member · "level") =
      findings.map fun f ↦ .str (sarifLevel f.severity) := by
    have hresults := congrArg (List.map fun parts ↦ parts.2.1) h.results
    rwa [List.map_map, List.map_map] at hresults
  have hmem : (.str "error") ∈ (readResults doc).map (member · "level") ↔
      ∃ f ∈ findings, Severe f := by
    rw [hlevels, List.mem_map]
    simp only [Json.str.injEq, sarifLevel_eq_error_iff, Severe]
  rw [← hmem, List.mem_map]

/-! ## Before the report is put out -/

/-- No file has been written, and at most the warning has been printed. -/
structure Silent (m m' : Machine) : Prop where
  files : m'.files = m.files
  console : Effect.Appended (· = noModelWarning) m.console m'.console

instance : IsPreorder Machine Silent where
  refl m := ⟨rfl, refl_of (Effect.Appended (· = noModelWarning)) m.console⟩
  trans _ _ _ h h' := ⟨h'.files.trans h.files, trans_of _ h.console h'.console⟩

section Silent

variable {α : Type} {inst : Installation} {args : ScanArgs}

theorem silent_onWorld (m : Action α) : Effect.Moves Silent (onWorld m) := fun s ↦
  ⟨rfl, refl_of (Effect.Appended (· = noModelWarning)) s.console⟩

theorem moves_uncaught {σ : Type} {R : σ → σ → Prop} {m : Effect PyError σ α}
    (h : Effect.Moves R m) : Effect.Moves R (uncaught m) := h

theorem silent_chooseProvider : Effect.Moves Silent (chooseProvider inst args) := by
  have hfiles : ∀ fs, (buildAiProviderFromEnv inst.float inst.host fs).2 = fs := by
    have hread : Effect.Keeps (fun fs ↦ fs) (buildAiProviderFromEnv inst.float inst.host) := by
      refine Effect.Keeps.bind ?_ fun _ ↦ .pure _
      exact Effect.Keeps.bind (fun _ ↦ rfl) fun _ ↦ .pure _
    exact hread
  have hwarning : Effect.Moves Silent (echo noModelWarning : Effect CliError Machine Unit) := by
    refine fun s ↦ ⟨rfl, [noModelWarning], rfl, ?_⟩
    exact List.forall_mem_singleton.mpr rfl
  have hsettings : Effect.Moves Silent
      (uncaught (onFiles (buildAiProviderFromEnv inst.float inst.host))) := by
    refine moves_uncaught fun s ↦ ⟨hfiles s.files, ?_⟩
    exact refl_of (Effect.Appended (· = noModelWarning)) s.console
  unfold chooseProvider
  split_ifs
  · refine hsettings.bind fun choice ↦ ?_
    split_ifs
    · exact hwarning.bind fun _ ↦ .pure _
    · exact .pure _
  · exact .pure _

theorem silent_prepareReport (profile : ScanProfile) :
    Effect.Moves Silent (prepareReport inst args profile) := by
  refine silent_chooseProvider.bind fun choice ↦ ?_
  refine (moves_uncaught (silent_onWorld _)).bind fun whole ↦ ?_
  exact (moves_uncaught (.ofExcept _)).bind fun text ↦ .pure _

end Silent

/-! ## Exceptions -/

section Crashes

variable {σ α β : Type}

/-- The computation returns, or an exception ends it that nothing catches. -/
def Crashes (m : Effect CliError σ α) : Prop := ∀ s e, (m s).1 = .error e → ∃ e', e = .uncaught e'

theorem crashes_pure (a : α) : Crashes (pure a : Effect CliError σ α) := fun s e h ↦
  absurd (show Except.ok a = .error e from h) (by simp)

theorem crashes_uncaught (m : Effect PyError σ α) : Crashes (uncaught m) := by
  intro s e h
  rw [uncaught] at h
  cases hresult : (m s).1 with
  | ok a => exact absurd (hresult ▸ h) (by simp [Except.mapError])
  | error e' => exact ⟨e', (Except.error.inj (hresult ▸ h)).symm⟩

theorem Crashes.bind {m : Effect CliError σ α} {f : α → Effect CliError σ β} (hm : Crashes m)
    (hf : ∀ a, Crashes (f a)) : Crashes (m >>= f) := by
  intro s e h
  rcases hrun : m s with ⟨result, s'⟩
  cases result with
  | error e' =>
      rw [Effect.bind_of_error hrun] at h
      obtain rfl := Except.error.inj h
      exact hm s e' (congrArg Prod.fst hrun)
  | ok a =>
      rw [Effect.bind_of_ok hrun] at h
      exact hf a s' e h

theorem crashes_prepareReport (inst : Installation) (args : ScanArgs) (profile : ScanProfile) :
    Crashes (prepareReport inst args profile) := by
  have hecho : ∀ text, Crashes (echo text : Effect CliError Machine Unit) := fun text s e h ↦
    absurd (show Except.ok () = .error e from h) (by simp)
  have hchoose : Crashes (chooseProvider inst args) := by
    unfold chooseProvider
    split_ifs
    · refine (crashes_uncaught _).bind fun choice ↦ ?_
      split_ifs
      · exact (hecho _).bind fun _ ↦ crashes_pure _
      · exact crashes_pure _
    · exact crashes_pure _
  refine hchoose.bind fun choice ↦ (crashes_uncaught _).bind fun whole ↦ ?_
  exact (crashes_uncaught _).bind fun text ↦ crashes_pure _

end Crashes

/-! ## The run behind a report -/

variable {inst : Installation} {args : ScanArgs}

/-- The target of the command. -/
structure Commissioned (inst : Installation) (args : ScanArgs) (target : Target) : Prop where
  baseUrls : args.url.mapM inst.httpUrl = some target.baseUrls
  scopeRules : defaultScopeRulesFor target.baseUrls = .ok target.scopeRules
  authorized : ∀ now, target.isAuthorized now = true

theorem commissioned_of_cliTarget {kind : ApplicationKind} {id : String}
    {verifiedAt createdAt : Time} {target : Target} {rules : List ScopeRule}
    (htarget : cliTarget inst args kind id verifiedAt createdAt = .ok target)
    (hrules : defaultScopeRulesFor target.baseUrls = .ok rules) :
    Commissioned inst args { target with scopeRules := rules } := by
  unfold cliTarget at htarget
  cases hurls : args.url.mapM inst.httpUrl with
  | none =>
      rw [hurls] at htarget
      exact absurd htarget (by simp)
  | some baseUrls =>
      rw [hurls] at htarget
      simp only at htarget
      split_ifs at htarget
      obtain rfl := Except.ok.inj htarget
      exact ⟨hurls, hrules, fun now ↦ rfl⟩

theorem returns_enlist : Effect.Returns (enlist inst args) (Commissioned inst args) := by
  refine (Effect.Returns.trivial _).bind fun kind _ ↦ ?_
  refine (Effect.Returns.trivial _).bind fun verifiedAt _ ↦ ?_
  refine (Effect.Returns.trivial _).bind fun ids _ ↦ ?_
  refine (Effect.Returns.trivial _).bind fun createdAt _ ↦ ?_
  refine (Effect.Returns.ofExcept fun target ↦ id).bind fun target htarget ↦ ?_
  refine (Effect.Returns.ofExcept fun rules ↦ id).bind fun rules hrules ↦ ?_
  exact .pure (commissioned_of_cliTarget htarget hrules)

/-- A run of the application on the sites of the command line has returned the report. -/
def RunOf (inst : Installation) (args : ScanArgs) (whole : ScanReport) : Prop :=
  ∃ reg choice scan target h p', Commissioned inst args target ∧
    profileOf args.profile = some scan.policy.profile ∧
      (inst.orchestrator reg choice).run scan target ⟨.empty, h⟩ = (.ok whole, p')

theorem returns_conductScan {profile : ScanProfile} (hprofile : profileOf args.profile = some profile)
    (choice : Option ProviderChoice) :
    Effect.Returns (conductScan inst args profile choice) (RunOf inst args) := by
  refine (Effect.Returns.trivial _).bind fun h _ ↦ ?_
  refine (Effect.Returns.trivial _).bind fun detected _ ↦ ?_
  cases hreg : registryOf inst args (selectRunner inst.world args.sandbox h) detected with
  | error e => exact .raise
  | ok reg =>
      refine returns_enlist.bind fun target htarget ↦ ?_
      refine (Effect.Returns.trivial _).bind fun ids _ ↦ ?_
      refine (Effect.Returns.trivial _).bind fun createdAt _ h whole h' hrun ↦ ?_
      obtain ⟨hwhole, -⟩ := Prod.mk.inj hrun
      exact ⟨reg, choice, _, target, h, _, htarget, hprofile, Prod.ext hwhole rfl⟩

theorem returns_proofs (o : Orchestrator History) (scan : Scan) (target : Target) :
    Effect.Returns (o.conduct scan target) fun whole ↦ whole.proofs ≠ none := by
  refine (Effect.Returns.trivial _).bind fun r₁ _ ↦ (Effect.Returns.trivial _).bind fun r₂ _ ↦ ?_
  refine (Effect.Returns.trivial _).bind fun r₃ _ ↦ (Effect.Returns.trivial _).bind fun r₄ _ ↦ ?_
  exact .pure (by simp)

/-- The scan is finished, and every finding has its proof. -/
theorem RunOf.finished {whole : ScanReport} (h : RunOf inst args whole) :
    whole.scan.state = .completed ∧ ∃ engine signed, Proven inst.digests engine signed whole := by
  obtain ⟨reg, choice, scan, target, log, p', htarget, -, hrun⟩ := h
  have hproofs : whole.proofs ≠ none := by
    have hconduct := hrun
    rw [run_eq, if_pos (htarget.authorized _)] at hconduct
    exact returns_proofs _ scan target _ _ _ hconduct
  refine ⟨?_, (proven_of_run inst.newIds_injective hrun hproofs).1⟩
  rcases (answers_run _ scan target _ _ _ hrun).ended with hcompleted | ⟨-, -, now, hnow⟩
  · exact hcompleted
  · rw [htarget.authorized now] at hnow
    exact absurd hnow (by simp)

/-- What is put out of a report. -/
def shownOf (args : ScanArgs) (whole : ScanReport) : ScanReport :=
  if args.confirmedOnly then filterConfirmed whole else whole

theorem exists_severe_shown_iff {whole : ScanReport} {engine : ProofEngine} {signed : Bool}
    (h : Proven inst.digests engine signed whole) :
    (∃ f ∈ (shownOf args whole).findings, Severe f) ↔ ∃ f ∈ whole.findings, Severe f ∧
      (args.confirmedOnly = true → verdictFor f ∈ confirmedVerdicts) := by
  have hkept : ∀ f, f ∈ (filterConfirmed whole).findings ↔
      f ∈ whole.findings ∧ verdictFor f ∈ confirmedVerdicts := by
    intro f
    rw [h.filterConfirmed_eq, List.mem_filter]
    refine and_congr_right fun hf ↦ ?_
    rw [h.confirmedBundle_eq hf, List.contains_iff_mem]
  unfold shownOf
  cases args.confirmedOnly with
  | false => simp
  | true =>
      simp only [if_true, hkept, forall_true_left]
      exact exists_congr fun f ↦ by rw [and_assoc, and_comm (a := Severe f)]

/-! ## How the command ends -/

/-- The file that is asked for. -/
def ScanArgs.file (args : ScanArgs) : Option PurePath :=
  args.out.bind fun path ↦ if path = "" then none else some (.ofText path)

/-- The text is in the file, and no other file has changed; without a file it was printed last. -/
def Delivered (args : ScanArgs) (text : String) (m m' : Machine) : Prop :=
  match args.file with
  | none => m'.files = m.files ∧ m'.console.head? = some text
  | some path =>
      m'.files = Function.update m.files path (some (.file (Utf8.encode text.toList)))

theorem delivered_of_silent {text : String} {m m₁ m' : Machine} (h : Silent m m₁)
    (h' : Delivered args text m₁ m') : Delivered args text m m' := by
  unfold Delivered at h' ⊢
  rwa [h.files] at h'

theorem deliverReport_cases (text : String) (m : Machine) :
    (∃ e, deliverReport inst args text m = (.error e, m)) ∨
      ∃ m', deliverReport inst args text m = (.ok (), m') ∧ Delivered args text m m' := by
  unfold deliverReport Delivered ScanArgs.file
  cases args.out with
  | none => exact Or.inr ⟨_, rfl, rfl, rfl⟩
  | some path =>
      by_cases hpath : path = ""
      · simp only [hpath, if_true, Option.bind_some]
        exact Or.inr ⟨_, rfl, rfl, rfl⟩
      · simp only [hpath, if_false, Option.bind_some]
        generalize Utf8.encode text.toList = bytes
        rcases writeBytes_cases inst.host (.ofText path) bytes m.files with hwrite | hwrite
        · have hstop : onFiles (writeBytes inst.host (.ofText path) bytes) m =
              (.error .osError, m) := by
            rw [onFiles, hwrite]
          exact Or.inl ⟨_, Effect.bind_of_error hstop _⟩
        · have hgo : onFiles (writeBytes inst.host (.ofText path) bytes) m =
              (.ok (), ⟨Function.update m.files (.ofText path) (some (.file bytes)), m.world,
                m.console⟩) := by
            rw [onFiles, hwrite]
          exact Or.inr ⟨_, Effect.bind_of_ok hgo _, rfl⟩

theorem prepareReport_ok {profile : ScanProfile} (hprofile : profileOf args.profile = some profile)
    {m m' : Machine} {shown : ScanReport} {text : String}
    (hrun : prepareReport inst args profile m = (.ok (shown, text), m')) :
    ∃ whole, RunOf inst args whole ∧ shown = shownOf args whole ∧
      Findings.render inst.real inst.dumps (shownOf args whole) args.fmt = .ok text := by
  obtain ⟨choice, m₁, -, hrun⟩ := Effect.exists_of_bind_ok hrun
  obtain ⟨whole, m₂, hwhole, hrun⟩ := Effect.exists_of_bind_ok hrun
  obtain ⟨text', m₃, htext, hrun⟩ := Effect.exists_of_bind_ok hrun
  obtain ⟨hpair, -⟩ := Effect.eq_of_pure hrun
  obtain ⟨rfl, rfl⟩ := Prod.mk.inj hpair
  obtain ⟨hscan, -⟩ := Prod.mk.inj (uncaught_of_ok hwhole)
  have hof : RunOf inst args whole :=
    returns_conductScan hprofile choice m₁.world whole _ (Prod.ext hscan rfl)
  exact ⟨whole, hof, rfl, congrArg Prod.fst (uncaught_of_ok htext)⟩

/-- The findings that are counted in a printed report. -/
def printedCount (doc : Json) (key : String) : Json :=
  member (member (member doc "summary") "by_severity") key

/-- A report of a finished scan has been put out, and what it says decides about the alarm. -/
structure Reported (inst : Installation) (args : ScanArgs) (m m' : Machine) (alarm : Prop)
    (whole : ScanReport) (text : String) : Prop where
  run : RunOf inst args whole
  completed : whole.scan.state = .completed
  rendered : Findings.render inst.real inst.dumps (shownOf args whole) args.fmt = .ok text
  delivered : Delivered args text m m'
  findings : alarm ↔ ∃ f ∈ whole.findings, Severe f ∧
    (args.confirmedOnly = true → verdictFor f ∈ confirmedVerdicts)
  sarif : lower args.fmt = "sarif" → ∃ doc, JsonReader.loads inst.float text.toList = .ok doc ∧
    (alarm ↔ ∃ result ∈ readResults doc, member result "level" = .str "error")
  json : lower args.fmt = "json" → Printable inst.float inst.dumps (shownOf args whole) →
    ∃ doc, JsonReader.loads inst.float text.toList = .ok doc ∧
      (alarm ↔ printedCount doc "critical" ≠ .num 0 ∨ printedCount doc "high" ≠ .num 0)

/-- Neither `--authorize` nor a known profile can be left out. -/
def ScanArgs.Refused (args : ScanArgs) : Prop :=
  args.authorize = false ∨ profileOf args.profile = none

/-- The ways in which the command ends. -/
inductive Ends (inst : Installation) (args : ScanArgs) (m : Machine) :
    Except CliError Unit × Machine → Prop
  | refused {text : String} (h : args.Refused) :
      Ends inst args m (.error (.exit 2), ⟨m.files, m.world, text :: m.console⟩)
  | crashed {e : PyError} {m' : Machine} (h : ¬ args.Refused) (hsilent : Silent m m') :
      Ends inst args m (.error (.uncaught e), m')
  | clean {m' : Machine} {whole : ScanReport} {text : String} (h : ¬ args.Refused)
      (hreported : Reported inst args m m' False whole text) : Ends inst args m (.ok (), m')
  | alarm {m' : Machine} {whole : ScanReport} {text : String} (h : ¬ args.Refused)
      (hreported : Reported inst args m m' True whole text) :
      Ends inst args m (.error (.exit 1), m')

theorem loads_of_render_sarif {shown : ScanReport} {text : String} (hfmt : lower args.fmt = "sarif")
    (hrender : Findings.render inst.real inst.dumps shown args.fmt = .ok text) :
    ∃ doc, JsonReader.loads inst.float text.toList = .ok doc ∧ Describes doc shown.findings := by
  have hjson : ¬ ("sarif" = "json") := by decide
  simp only [Findings.render, hfmt, if_neg hjson, if_true, Except.ok.injEq] at hrender
  refine ⟨sarif inst.real shown "0.1.0", ?_, describes_sarif inst.real shown "0.1.0"⟩
  rw [← hrender]
  exact loads_ofPretty (loadable_sarif "0.1.0" fun f _ ↦ inst.real_reread f.riskScore)

theorem loads_of_render_json {shown : ScanReport} {text : String} (hfmt : lower args.fmt = "json")
    (hrender : Findings.render inst.real inst.dumps shown args.fmt = .ok text)
    (hprintable : Printable inst.float inst.dumps shown) :
    JsonReader.loads inst.float text.toList = .ok (.obj (payload inst.dumps shown)) := by
  simp only [Findings.render, hfmt, if_true, Except.ok.injEq] at hrender
  rw [← hrender]
  exact loads_ofPretty (loadable_payload hprintable)

theorem printedCount_payload (dumps : Dumps) (shown : ScanReport) (sev : Severity) :
    printedCount (.obj (payload dumps shown)) sev.value = .num (countOf shown.findings sev.value) := by
  cases sev <;> rfl

theorem reported_of_delivered {whole : ScanReport} {text : String} {m m₁ m' : Machine}
    {alarm : Prop} (hrun : RunOf inst args whole)
    (hrender : Findings.render inst.real inst.dumps (shownOf args whole) args.fmt = .ok text)
    (hsilent : Silent m m₁) (hdelivered : Delivered args text m₁ m')
    (halarm : alarm ↔ ∃ f ∈ (shownOf args whole).findings, Severe f) :
    Reported inst args m m' alarm whole text := by
  obtain ⟨hcompleted, engine, signed, hproven⟩ := hrun.finished
  refine ⟨hrun, hcompleted, hrender, delivered_of_silent hsilent hdelivered,
    halarm.trans (exists_severe_shown_iff hproven), fun hfmt ↦ ?_, fun hfmt hprintable ↦ ?_⟩
  · obtain ⟨doc, hloads, hdescribes⟩ := loads_of_render_sarif hfmt hrender
    exact ⟨doc, hloads, halarm.trans (exists_error_iff hdescribes).symm⟩
  · have hcount : ∀ sev : Severity, printedCount (.obj (payload inst.dumps (shownOf args whole)))
        sev.value ≠ .num 0 ↔ countOf (shownOf args whole).findings sev.value ≠ 0 := by
      intro sev
      rw [printedCount_payload, Ne, Json.num.injEq, Int.natCast_eq_zero]
    refine ⟨_, loads_of_render_json hfmt hrender hprintable, ?_⟩
    rw [halarm, ← counts_iff]
    exact or_congr (hcount .critical).symm (hcount .high).symm

theorem ends_scanRun (inst : Installation) (args : ScanArgs) (m : Machine) :
    Ends inst args m (scanRun inst args m) := by
  unfold scanRun
  cases hauthorize : args.authorize with
  | false => exact .refused (Or.inl hauthorize)
  | true =>
      cases hprofile : profileOf args.profile with
      | none => exact .refused (Or.inr hprofile)
      | some profile =>
          have hopen : ¬ args.Refused := by simp [ScanArgs.Refused, hauthorize, hprofile]
          simp only [Bool.not_true, Bool.false_eq_true, if_false]
          rcases hprepare : prepareReport inst args profile m with ⟨result, m₁⟩
          have hsilent : Silent m m₁ := (silent_prepareReport profile).of_run hprepare
          cases result with
          | error e =>
              obtain ⟨e', rfl⟩ := crashes_prepareReport inst args profile m e (by rw [hprepare])
              rw [Effect.bind_of_error hprepare]
              exact .crashed hopen hsilent
          | ok pair =>
              obtain ⟨shown, text⟩ := pair
              obtain ⟨whole, hrun, rfl, hrender⟩ := prepareReport_ok hprofile hprepare
              rw [Effect.bind_of_ok hprepare]
              rcases deliverReport_cases text m₁ with ⟨e, hdeliver⟩ | ⟨m', hdeliver, hdelivered⟩
              · have hstop : uncaught (deliverReport inst args text) m₁ =
                    (.error (.uncaught e), m₁) := by
                  rw [uncaught, hdeliver]
                  rfl
                rw [Effect.bind_of_error hstop]
                exact .crashed hopen hsilent
              · have hgo : uncaught (deliverReport inst args text) m₁ = (.ok (), m') := by
                  rw [uncaught, hdeliver]
                  rfl
                rw [Effect.bind_of_ok hgo]
                split_ifs with hcounts
                · refine .alarm hopen (reported_of_delivered hrun hrender hsilent hdelivered ?_)
                  simpa only [true_iff] using counts_iff.mp hcounts
                · refine .clean hopen (reported_of_delivered hrun hrender hsilent hdelivered ?_)
                  simpa only [false_iff] using mt counts_iff.mpr hcounts

end Vantage
