import Vantage.Engines.Adapter
import Vantage.Engines.Sandbox
import Vantage.Findings.Taxonomy
import Vantage.Lib.ExceptList
import Vantage.Lib.Regex
import Vantage.Lib.Url

/-!
# Adapters around isolated engines

An adapter supplies the arguments of the tool, the parser of its output and the
normalization of the records. Records are objects that the tool has written;
nothing is known about their members.
-/

namespace Vantage.Adapters.Oss

open Text Engines

/-! ## Values of a record -/

abbrev Record := List (String × Json)

/-- `int` of a text that `isdigit` accepts; not all of these can be converted. -/
def intOfDigits (s : String) : Except PyError (Option ℤ) :=
  if isDigitText s.toList then
    match parseInt s with
    | some n => .ok (some n)
    | none => .error .valueError
  else .ok none

/-- The elements that a `for` loop over a value goes through. -/
def iterate : Json → Except PyError (List Json)
  | .arr items => .ok items
  | .str s => .ok (s.toList.map fun c ↦ .str (String.singleton c))
  | .obj members => .ok (members.map fun m ↦ .str m.1)
  | _ => .error .typeError

/-- `len` of a value. -/
def lenOf : Json → Except PyError ℕ
  | .arr items => .ok items.length
  | .str s => .ok s.length
  | .obj members => .ok members.length
  | _ => .error .typeError

/-- The key of the first needle that occurs in the text. -/
def guessClass (hints : List (String × String)) (text : String) : String :=
  ((hints.find? fun hint ↦ contains text hint.1).map Prod.snd).getD "other"

def htmlTag : Regex := .ofSeq [.lit "<", .some1 (Regex.isNoneOf ">"), .lit ">"]

/-- `_strip_html`. -/
def stripHtml (text : String) : String :=
  strip (String.ofList (htmlTag.remove text.toList))

/-! ## Locations -/

/-- A URL is made of a text without a scheme. -/
def withScheme (text : String) : String :=
  if contains text "://" then text
  else if text = "" then "https://unknown/"
  else "https://" ++ text

/-- `_location`; the adapters differ in the host of a URL that has none. -/
def locationOf (noHost : String) (method : String) (parameter : Option String) (url : String) :
    Except PyError Location :=
  match Url.urlsplit url with
  | none => .error .valueError
  | some parts =>
      let scheme := lower (if parts.scheme = "" then "https" else parts.scheme)
      match parts.port with
      | none => .error .valueError
      | some explicit =>
          let fallback := if scheme = "https" then 443 else 80
          let port := match explicit with
            | none => fallback
            | some p => if p = 0 then fallback else p
          .ok <| Location.modelValidate
            { scheme := scheme
              host := lower (orElse parts.hostname noHost)
              port := port
              path := if parts.path = "" then "/" else parts.path
              method := some method
              parameter := parameter }

/-- The first host among the seeds. -/
def seedHost : List String → Except PyError String
  | [] => .ok "unknown"
  | u :: urls =>
      match Url.urlsplit u with
      | none => .error .valueError
      | some parts =>
          match parts.hostname with
          | none => seedHost urls
          | some h => if h = "" then seedHost urls else .ok (lower h)

/-! ## Output of a tool -/

/-- Engine output after structural validation. -/
structure RawResults where
  engineId : String
  engineVersion : String
  format : String
  records : List Record
  rejectedRecords : ℕ := 0

variable (w : World)

def decodeUtf8 (bytes : List UInt8) : Except PyError String :=
  match w.decode "utf-8" bytes with
  | .error message => .error (.other message)
  | .ok text => .ok text

/-- `_guard_output`. -/
def guardOutput : Option SandboxResult → Except PyError String
  | none => .ok ""
  | some result => if result.timedOut then .ok "" else decodeUtf8 w result.stdout

/-- What becomes of one line of JSON. -/
inductive Line where
  | record (r : Record)
  | rejected
  | skipped

/-- The records and the number of rejected lines; only lines that are no JSON are caught. -/
def parseLines (classify : Json → Line) : List String → Except PyError (List Record × ℕ)
  | [] => .ok ([], 0)
  | line :: lines =>
      let text := strip line
      if text = "" then parseLines classify lines
      else
        match w.loads text with
        | .error .jsonDecodeError =>
            (parseLines classify lines).map fun (records, rejected) ↦ (records, rejected + 1)
        | .error e => .error e
        | .ok value =>
            (parseLines classify lines).map fun (records, rejected) ↦
              match classify value with
              | .record r => (r :: records, rejected)
              | .rejected => (records, rejected + 1)
              | .skipped => (records, rejected)

def objectLine : Json → Line
  | .obj members => .record members
  | _ => .rejected

/-- `_parse_jsonl`. -/
def parseJsonl (text : String) : Except PyError (List Record × ℕ) :=
  parseLines w objectLine (splitLines text)

/-- The report file, or the captured output when it is missing or empty. -/
def reportBlob (file : String) : Option SandboxResult → List UInt8
  | none => []
  | some result =>
      let blob := (result.outputFiles.lookup file).getD []
      if blob = [] then result.stdout else blob

/-- A report that is one JSON document. -/
def parseReport (read : Json → Except PyError (List Record × ℕ)) (blob : List UInt8) :
    Except PyError (List Record × ℕ) :=
  if blob = [] then .ok ([], 0)
  else do
    let text ← decodeUtf8 w blob
    match w.loads text with
    | .error .jsonDecodeError => .ok ([], 1)
    | .error e => .error e
    | .ok doc => read doc

/-! ## Adapters -/

abbrev EngineId := {id : String // isIdentifier id = true}

/-- The class attributes of an adapter. -/
structure ContainerEngine where
  id : String
  name : String
  vendor : String
  homepage : String := ""
  licenseSpdx : String
  capabilities : List Capability
  image : String
  binary : String
  id_ok : isIdentifier id = true

def ContainerEngine.engineId (e : ContainerEngine) : EngineId := ⟨e.id, e.id_ok⟩

/-- The license class is left to the registry. -/
def ContainerEngine.metadata (e : ContainerEngine) (version : String) (approved : Bool) :
    EngineMetadata where
  id := e.id
  name := e.name
  version := version
  vendor := e.vendor
  licenseSpdx := e.licenseSpdx
  licenseClass := .green
  approvalStatus := if approved then .approved else .pendingReview
  integration := .containerCli
  capabilities := e.capabilities
  image := some e.image
  homepage := if e.homepage = "" then none else some e.homepage
  id_ok := e.id_ok

/-- `_base_spec`. -/
def ContainerEngine.baseSpec (e : ContainerEngine) (args : List String) : ContainerSpec where
  image := e.image
  args := args
  network := .scopedEgress
  limits := {}
  env := []
  binary := if e.binary = "" then none else some e.binary

/-- What an adapter makes of a record. -/
structure Report where
  detectorId : String
  title : String
  vulnClass : String
  severity : Severity
  confidence : Confidence := .tentative
  cwe : List ℤ := []
  location : Location
  description : String := ""
  remediation : String := ""
  references : List String := []
  evidence : RawEvidence

def newObservation (e : EngineId) (version : String) (request : EngineRunRequest)
    (r : Report) : Action Observation := do
  let evidence ← Effect.ofExcept (Evidence.modelValidate r.evidence)
  let id ← w.freshId
  let now ← w.utcnow
  pure { id := id
         scanId := request.scanId
         runId := request.runId
         engineId := e.val
         engineVersion := version
         detectorId := r.detectorId
         title := r.title
         vulnClass := r.vulnClass
         severity := r.severity
         confidence := r.confidence
         cwe := r.cwe
         location := r.location
         description := r.description
         remediation := r.remediation
         references := r.references
         evidence := [evidence]
         observedAt := now
         engineId_ok := e.property }

/-- The loop over the records, where each may give several reports or raise. -/
def normalizeRecords {ρ : Type} (e : EngineId) (version : String)
    (request : EngineRunRequest) (reportsOf : ρ → Except PyError (List Report))
    (records : List ρ) : Action (List Observation) :=
  Effect.collect (fun record ↦ do
    let reports ← Effect.ofExcept (reportsOf record)
    Effect.collect (fun r ↦ do
      let o ← newObservation w e version request r
      pure [o]) reports) records

structure ContainerAdapter where
  engine : ContainerEngine
  format : String
  prepareArgs : EngineRunRequest → Except PyError (List String)
  collect : World → Option SandboxResult → Except PyError (List Record × ℕ)
  normalize : World → String → EngineRunRequest → List Record → Action (List Observation)

/-- `prepare_target`. -/
def ContainerAdapter.prepareTarget (a : ContainerAdapter) (request : EngineRunRequest) :
    Except PyError ContainerSpec := do
  let args ← a.prepareArgs request
  pure (a.engine.baseSpec args)

/-- `collect_results`. -/
def ContainerAdapter.collectResults (a : ContainerAdapter) (version : String)
    (sandbox : Option SandboxResult) : Except PyError RawResults := do
  let (records, rejected) ← a.collect w sandbox
  pure { engineId := a.engine.id
         engineVersion := version
         format := a.format
         records := records
         rejectedRecords := rejected }

def ContainerAdapter.toEngineAdapter (a : ContainerAdapter) (runner : SandboxRunner)
    (version : String) : EngineAdapter History where
  metadata := pure (a.engine.metadata version false)
  Prepared := ContainerSpec
  Outcome := Option SandboxResult
  Raw := RawResults
  healthCheck := do
    let available ← runner.available
    pure (if available then .healthy else .unavailable)
  prepareTarget request := Effect.ofExcept (a.prepareTarget request)
  executeScan spec := do
    let result ← runner.run spec
    pure (some result)
  collectResults sandbox := Effect.ofExcept (a.collectResults w version sandbox)
  normalizeResults raw request := a.normalize w version request raw.records
  cleanup _ := pure ()

/-! ## The confidence of what is reported -/

variable {w} {e : EngineId} {version : String} {request : EngineRunRequest}

theorem newObservation_confidence {r : Report} :
    Effect.Returns (newObservation w e version request r) fun o ↦ o.confidence = r.confidence := by
  refine Effect.Returns.bind (Effect.Returns.trivial _) fun evidence _ ↦ ?_
  refine Effect.Returns.bind (Effect.Returns.trivial _) fun id _ ↦ ?_
  exact Effect.Returns.bind (Effect.Returns.trivial _) fun now _ ↦ Effect.Returns.pure rfl

/-- What holds of the confidence of the reports holds of the observations. -/
theorem normalizeRecords_confidence {ρ : Type} {reportsOf : ρ → Except PyError (List Report)}
    {records : List ρ} {Q : Confidence → Prop}
    (h : ∀ record ∈ records, ∀ reports, reportsOf record = .ok reports →
      ∀ r ∈ reports, Q r.confidence) :
    Effect.Returns (normalizeRecords w e version request reportsOf records) fun obs ↦
      ∀ o ∈ obs, Q o.confidence := by
  apply Effect.Returns.collect
  intro record hrecord
  refine Effect.Returns.bind (Effect.Returns.ofExcept (h record hrecord)) fun reports hreports ↦ ?_
  apply Effect.Returns.collect
  intro r hr
  refine Effect.Returns.bind newObservation_confidence fun o ho ↦ Effect.Returns.pure ?_
  intro o' ho'
  rw [List.mem_singleton.mp ho', ho]
  exact hreports r hr

/-! ## What the observations say -/

/-- The observation says what the report says. -/
structure Reports (e : EngineId) (version : String) (request : EngineRunRequest) (r : Report)
    (o : Observation) : Prop where
  scanId : o.scanId = request.scanId
  runId : o.runId = request.runId
  engineId : o.engineId = e.val
  engineVersion : o.engineVersion = version
  detectorId : o.detectorId = r.detectorId
  title : o.title = r.title
  vulnClass : o.vulnClass = r.vulnClass
  severity : o.severity = r.severity
  confidence : o.confidence = r.confidence
  cwe : o.cwe = r.cwe
  location : o.location = r.location
  description : o.description = r.description
  remediation : o.remediation = r.remediation
  references : o.references = r.references
  evidence : ∃ ev, Evidence.modelValidate r.evidence = .ok ev ∧ o.evidence = [ev]

/-- Equal apart from the identifier and the time. -/
def SameContent (o o' : Observation) : Prop :=
  { o with id := o'.id, observedAt := o'.observedAt } = o'

/-- The evidence of the report passes its validators. -/
def Report.Accepted (r : Report) : Prop :=
  isIdentifier r.evidence.engineId = true ∧ r.evidence.summary.length ≤ maxSummary

/-- The reports of the records. -/
def Reported {ρ : Type} (reportsOf : ρ → Except PyError (List Report)) (records : List ρ)
    (r : Report) : Prop := ∃ x ∈ records, ∃ reports, reportsOf x = .ok reports ∧ r ∈ reports

/-- There are reports, and all of them are accepted. -/
def AllAccepted (m : Except PyError (List Report)) : Prop :=
  ∃ reports, m = .ok reports ∧ ∀ r ∈ reports, r.Accepted

section Content

variable {r r' : Report} {o o' : Observation} {ρ : Type}
  {reportsOf : ρ → Except PyError (List Report)} {records : List ρ}

theorem Reports.sameContent (h : Reports e version request r o)
    (h' : Reports e version request r o') : SameContent o o' := by
  obtain ⟨ev, hev, hevidence⟩ := h.evidence
  obtain ⟨ev', hev', hevidence'⟩ := h'.evidence
  obtain rfl : ev = ev' := Except.ok.inj (hev.symm.trans hev')
  cases o
  cases o'
  simp only [SameContent, Observation.mk.injEq, true_and, and_true]
  exact ⟨h.scanId.trans h'.scanId.symm, h.runId.trans h'.runId.symm,
    h.engineId.trans h'.engineId.symm, h.engineVersion.trans h'.engineVersion.symm,
    h.detectorId.trans h'.detectorId.symm, h.title.trans h'.title.symm,
    h.vulnClass.trans h'.vulnClass.symm, h.severity.trans h'.severity.symm,
    h.confidence.trans h'.confidence.symm, h.cwe.trans h'.cwe.symm,
    h.location.trans h'.location.symm, h.description.trans h'.description.symm,
    h.remediation.trans h'.remediation.symm, h.references.trans h'.references.symm,
    hevidence.trans hevidence'.symm⟩

theorem exists_evidence_iff : (∃ ev, Evidence.modelValidate r.evidence = .ok ev) ↔ r.Accepted := by
  unfold Evidence.modelValidate Report.Accepted
  split_ifs with hok
  · exact iff_of_true ⟨_, rfl⟩ hok
  · exact iff_of_false (by simp) hok

/-- Validation keeps what it is given. -/
theorem evidence_injective {raw raw' : RawEvidence} {ev : Evidence}
    (h : Evidence.modelValidate raw = .ok ev) (h' : Evidence.modelValidate raw' = .ok ev) :
    raw = raw' := by
  unfold Evidence.modelValidate at h h'
  split_ifs at h h'
  obtain rfl := Except.ok.inj h
  have heq := Except.ok.inj h'
  cases raw
  cases raw'
  simp only [Evidence.mk.injEq] at heq
  simp only [RawEvidence.mk.injEq]
  obtain ⟨hkind, hengine, hsummary, hrequest, hresponse, hmatched, hdata⟩ := heq
  exact ⟨hkind.symm, hengine.symm, hsummary.symm, hrequest.symm, hresponse.symm, hmatched.symm,
    hdata.symm⟩

theorem Reports.eq_of_sameContent (h : Reports e version request r o)
    (h' : Reports e version request r' o') (hsame : SameContent o o') : r = r' := by
  obtain ⟨ev, hev, hevidence⟩ := h.evidence
  obtain ⟨ev', hev', hevidence'⟩ := h'.evidence
  have hfields : ∀ {β : Type} (field : Observation → β),
      field { o with id := o'.id, observedAt := o'.observedAt } = field o' :=
    fun field ↦ congrArg field hsame
  have hsingle : [ev] = [ev'] :=
    hevidence.symm.trans ((hfields Observation.evidence).trans hevidence')
  obtain rfl : ev = ev' := List.singleton_inj.mp hsingle
  have hraw : r.evidence = r'.evidence := evidence_injective hev hev'
  cases r
  cases r'
  simp only [Report.mk.injEq]
  exact ⟨h.detectorId.symm.trans ((hfields Observation.detectorId).trans h'.detectorId),
    h.title.symm.trans ((hfields Observation.title).trans h'.title),
    h.vulnClass.symm.trans ((hfields Observation.vulnClass).trans h'.vulnClass),
    h.severity.symm.trans ((hfields Observation.severity).trans h'.severity),
    h.confidence.symm.trans ((hfields Observation.confidence).trans h'.confidence),
    h.cwe.symm.trans ((hfields Observation.cwe).trans h'.cwe),
    h.location.symm.trans ((hfields Observation.location).trans h'.location),
    h.description.symm.trans ((hfields Observation.description).trans h'.description),
    h.remediation.symm.trans ((hfields Observation.remediation).trans h'.remediation),
    h.references.symm.trans ((hfields Observation.references).trans h'.references), hraw⟩

theorem returns_newObservation :
    Effect.Returns (newObservation w e version request r) (Reports e version request r) := by
  refine Effect.Returns.bind (Effect.Returns.ofExcept fun ev hev ↦ hev) fun ev hev ↦ ?_
  refine Effect.Returns.bind (Effect.Returns.trivial _) fun id _ ↦ ?_
  refine Effect.Returns.bind (Effect.Returns.trivial _) fun now _ ↦ Effect.Returns.pure ?_
  exact ⟨rfl, rfl, rfl, rfl, rfl, rfl, rfl, rfl, rfl, rfl, rfl, rfl, rfl, rfl, ev, hev, rfl⟩

theorem returnsIff_newObservation :
    Effect.ReturnsIff (newObservation w e version request r) r.Accepted := by
  rw [← exists_evidence_iff, ← and_true (∃ ev, _)]
  refine Effect.ReturnsIff.bind (Effect.ReturnsIff.ofExcept _) fun _ ev _ _ ↦ ?_
  exact fun h ↦ iff_of_true ⟨_, _, rfl⟩ True.intro

theorem returnsIff_newObservations {reports : List Report} :
    Effect.ReturnsIff (Effect.collect (fun r ↦ do
      let o ← newObservation w e version request r
      pure [o]) reports) (∀ r ∈ reports, r.Accepted) := by
  refine Effect.ReturnsIff.collect fun r _ ↦ ?_
  rw [← and_true r.Accepted]
  exact Effect.ReturnsIff.bind returnsIff_newObservation fun _ _ _ _ ↦ Effect.ReturnsIff.pure _

/-- One record that cannot be read makes the whole normalization raise. -/
theorem returnsIff_normalizeRecords :
    Effect.ReturnsIff (normalizeRecords w e version request reportsOf records)
      (∀ x ∈ records, AllAccepted (reportsOf x)) := by
  apply Effect.ReturnsIff.collect
  intro x _ h
  constructor
  · rintro ⟨obs, h', hrun⟩
    obtain ⟨reports, hreports, hrun⟩ := Effect.ofExcept_bind_eq_ok_iff.mp hrun
    exact ⟨reports, hreports, (returnsIff_newObservations h).mp ⟨obs, h', hrun⟩⟩
  · rintro ⟨reports, hreports, haccepted⟩
    rw [Effect.bind_of_ok (Effect.ofExcept_of_ok hreports h)]
    exact (returnsIff_newObservations h).mpr haccepted

/-- The observations are those of the reports. -/
theorem returns_normalizeRecords :
    Effect.Returns (normalizeRecords w e version request reportsOf records) fun obs ↦
      (∀ o ∈ obs, ∃ r, Reported reportsOf records r ∧ Reports e version request r o) ∧
        ∀ r, Reported reportsOf records r → ∃ o ∈ obs, Reports e version request r o := by
  intro h obs h' hrun
  obtain ⟨blocks, rfl, hblocks⟩ := Effect.exists_blocks_of_collect hrun
  have hall : List.Forall₂ (fun x block ↦ ∃ reports, reportsOf x = .ok reports ∧
      List.Forall₂ (Reports e version request) reports block) records blocks := by
    refine hblocks.imp ?_
    rintro x block ⟨s, s', hx⟩
    obtain ⟨reports, hreports, hx⟩ := Effect.ofExcept_bind_eq_ok_iff.mp hx
    exact ⟨reports, hreports,
      Effect.Returns.forall₂_collect (fun r ↦ returns_newObservation) s block s' hx⟩
  constructor
  · intro o ho
    obtain ⟨block, hblock, ho⟩ := List.mem_flatten.mp ho
    obtain ⟨x, hx, reports, hreports, hpairs⟩ := ExceptList.exists_of_forall₂ hall.flip hblock
    obtain ⟨r, hr, hro⟩ := ExceptList.exists_of_forall₂ hpairs.flip ho
    exact ⟨r, ⟨x, hx, reports, hreports, hr⟩, hro⟩
  · rintro r ⟨x, hx, reports, hreports, hr⟩
    obtain ⟨block, hblock, reports', hreports', hpairs⟩ := ExceptList.exists_of_forall₂ hall hx
    obtain rfl : reports = reports' := Except.ok.inj (hreports.symm.trans hreports')
    obtain ⟨o, ho, hro⟩ := ExceptList.exists_of_forall₂ hpairs hr
    exact ⟨o, List.mem_flatten.mpr ⟨block, hblock, ho⟩, hro⟩

end Content

/-! ## What normalization appends to the history -/

theorem logs_normalizeRecords {P C : Event → Prop} (hquiet : World.Quiet P) {ρ : Type}
    {reportsOf : ρ → Except PyError (List Report)} {records : List ρ} :
    Effect.Logs P C (normalizeRecords w e version request reportsOf records) fun _ ↦ True := by
  have hreport : ∀ r, Effect.Logs P C (newObservation w e version request r) fun _ ↦ True := by
    intro r
    refine Effect.Logs.bind (Effect.Logs.ofExcept (Q := fun _ ↦ True) (by simp)) fun evidence ↦ ?_
    refine Effect.Logs.bind (World.logs_freshId hquiet) fun id ↦ ?_
    exact Effect.Logs.bind (World.logs_utcnow hquiet) fun now ↦ Effect.Logs.pure (by simp)
  have hcollect : Effect.Logs P C (normalizeRecords w e version request reportsOf records)
      fun obs ↦ ∀ o ∈ obs, True := by
    apply Effect.Logs.collect
    intro record _
    refine Effect.Logs.bind (Effect.Logs.ofExcept (Q := fun _ ↦ True) (by simp)) fun reports ↦ ?_
    refine Effect.Logs.mono (Effect.Logs.collect (R := fun _ ↦ True) fun r _ ↦ ?_) (by simp)
    exact Effect.Logs.bind (hreport r) fun o ↦ Effect.Logs.pure (by simp)
  exact hcollect.mono (by simp)

end Vantage.Adapters.Oss
