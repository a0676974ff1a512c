import Vantage.Findings.JsonReport
import Vantage.Lib.JsonPrinter

/-!
# The machine-readable reports

The JSON report and the SARIF report are printed with an indent of two. Reading
them back gives what was printed: the whole payload of the one, and in the
other a result for each finding and a rule for each category.
-/

namespace Vantage.Findings

open Json JsonReader Text

def toJson (dumps : Dumps) (report : ScanReport) : String :=
  String.ofList ((Json.obj (payload dumps report)).pretty 0)

/-! ## SARIF -/

/-- `_SARIF_LEVEL`. -/
def sarifLevel : Severity → String
  | .info => "note"
  | .low => "note"
  | .medium => "warning"
  | .high => "error"
  | .critical => "error"

def sarifRule (f : UnifiedFinding) : Json :=
  .obj [("id", .str f.category), ("name", .str f.title),
    ("shortDescription", .obj [("text", .str f.category)]),
    ("properties", .obj [("cwe", .texts (f.cwe.map fun c ↦ "CWE-" ++ toString c)),
      ("owasp", .texts f.owasp)])]

/-- The rules by their identifiers; the first finding of a category describes it. -/
def sarifRules (findings : List UnifiedFinding) : Dict String Json :=
  findings.foldl (fun rules f ↦ rules.setDefault f.category (sarifRule f)) Dict.empty

/-- `real` is the floating-point number of a score. -/
def sarifResult (real : ℚ → PyFloat) (f : UnifiedFinding) : Json :=
  .obj [("ruleId", .str f.category), ("level", .str (sarifLevel f.severity)),
    ("message", .obj [("text", .str (f.title ++ " (" ++ join ", " f.engines ++ ")"))]),
    ("locations", .arr [.obj [("physicalLocation", .obj [("artifactLocation",
      .obj [("uri", .str (f.host ++ ":" ++ toString f.port ++ f.endpoint))])])]]),
    ("properties", .obj [("severity", .str f.severity.value),
      ("confidence", .str f.confidence.value), ("risk_score", .real (real f.riskScore)),
      ("engines", .texts f.engines), ("fingerprint", .str f.fingerprint)]),
    ("partialFingerprints", .obj [("vantage/v1", .str f.fingerprint)])]

def sarif (real : ℚ → PyFloat) (report : ScanReport) (toolVersion : String) : Json :=
  .obj [("$schema", .str "https://json.schemastore.org/sarif-2.1.0.json"),
    ("version", .str "2.1.0"),
    ("runs", .arr [.obj [
      ("tool", .obj [("driver", .obj [("name", .str "Vantage DAST"), ("version", .str toolVersion),
        ("informationUri", .str "https://vantage.example/dast"),
        ("rules", .arr (sarifRules report.findings).values)])]),
      ("results", .arr (report.findings.map (sarifResult real)))]])]

def toSarif (real : ℚ → PyFloat) (report : ScanReport) (toolVersion : String := "0.1.0") : String :=
  String.ofList ((sarif real report toolVersion).pretty 0)

/-- The formats may be written in capitals. -/
def render (real : ℚ → PyFloat) (dumps : Dumps) (report : ScanReport) (fmt : String) :
    Except PyError String :=
  let fmt := lower fmt
  if fmt = "json" then .ok (toJson dumps report)
  else if fmt = "sarif" then .ok (toSarif real report)
  else if fmt ∈ ["md", "markdown"] then .ok (toMarkdown report)
  else .error .valueError

/-! ## What is loadable -/

variable {float : List Char → PyFloat}

theorem loadableItems_iff {l : List Json} :
    LoadableItems float l ↔ ∀ value ∈ l, Loadable float value := by
  induction l with
  | nil => simp [LoadableItems]
  | cons value l ih => rw [LoadableItems, ih, List.forall_mem_cons]

theorem loadableMembers_iff {l : List (String × Json)} :
    LoadableMembers float l ↔ ∀ member ∈ l, Loadable float member.2 := by
  induction l with
  | nil => simp [LoadableMembers]
  | cons member l ih => rw [LoadableMembers, ih, List.forall_mem_cons]

theorem loadable_texts (l : List String) : Loadable float (.texts l) := by
  refine loadableItems_iff.mpr fun value hvalue ↦ ?_
  obtain ⟨s, -, rfl⟩ := List.mem_map.mp hvalue
  trivial

theorem loadable_ofOption (s : Option String) : Loadable float (.ofOption s) := by
  cases s <;> trivial

theorem short_of_lt {n : ℕ} (h : n < 10 ^ maxIntDigits) : Short n :=
  (Nat.length_toDigits_le_iff (by decide) (by decide)).mpr h

/-- What a report has to be for its numbers and dictionaries to be printed and read: the counts
have no more digits than Python converts, and the keys of dictionaries are distinct. -/
structure Printable (float : List Char → PyFloat) (dumps : Dumps) (report : ScanReport) :
    Prop where
  scan : Loadable float (dumps.scan report.scan)
  finding : ∀ f ∈ report.findings, Loadable float (dumps.finding f)
  findings : report.findings.length < 10 ^ maxIntDigits
  observations : report.observations < 10 ^ maxIntDigits
  bundles : ∀ proofs ∈ report.proofs, proofs.proofs.length < 10 ^ maxIntDigits ∧
    ∀ p ∈ proofs.proofs, Loadable float (.obj p.toDict)
  groups : ∀ ai ∈ report.advice, (ai.groups.map Prod.fst).Nodup
  annotations : ∀ ai ∈ report.advice, (ai.annotations.map Prod.fst).Nodup
  ranks : ∀ ai ∈ report.advice, ∀ entry ∈ ai.annotations, ∀ n ∈ entry.2.priorityRank, Short n

theorem loadable_summary {dumps : Dumps} {report : ScanReport}
    (h : Printable float dumps report) : Loadable float (summaryJson report) := by
  have hcount : ∀ sev, Short (report.findings.countP (·.severity = sev) : ℕ) := fun sev ↦
    short_of_lt (lt_of_le_of_lt List.countP_le_length h.findings)
  simp [summaryJson, summarize, severities, Loadable, LoadableMembers, loadable_texts,
    short_of_lt h.findings, short_of_lt h.observations, hcount, Severity.value]

theorem loadable_proofs {dumps : Dumps} {report : ScanReport} (h : Printable float dumps report)
    {proofs : ProofReport} (hproofs : proofs ∈ report.proofs) :
    Loadable float (proofsJson proofs) := by
  obtain ⟨hlength, hbundles⟩ := h.bundles proofs hproofs
  have hconfirmed : Short (proofs.confirmed.length : ℕ) :=
    short_of_lt (lt_of_le_of_lt (List.length_filter_le _ _) hlength)
  have hitems : LoadableItems float (proofs.proofs.map fun p ↦ .obj p.toDict) := by
    refine loadableItems_iff.mpr fun value hvalue ↦ ?_
    obtain ⟨p, hp, rfl⟩ := List.mem_map.mp hvalue
    exact hbundles p hp
  simp [proofsJson, Loadable, LoadableMembers, hconfirmed, hitems]

theorem loadable_advice {dumps : Dumps} {report : ScanReport} (h : Printable float dumps report)
    {ai : Ai.AiAssessment} (hai : ai ∈ report.advice) : Loadable float (adviceJson ai) := by
  have hgroups : Loadable float (.obj (ai.groups.map fun group ↦ (group.1, .texts group.2))) := by
    refine ⟨?_, loadableMembers_iff.mpr fun member hmember ↦ ?_⟩
    · rw [List.map_map]
      exact h.groups ai hai
    · obtain ⟨group, -, rfl⟩ := List.mem_map.mp hmember
      exact loadable_texts group.2
  have hannotations : Loadable float
      (.obj (ai.annotations.map fun entry ↦ (entry.1, annotationJson entry.2))) := by
    refine ⟨?_, loadableMembers_iff.mpr fun member hmember ↦ ?_⟩
    · rw [List.map_map]
      exact h.annotations ai hai
    · obtain ⟨entry, hentry, rfl⟩ := List.mem_map.mp hmember
      have hrank : Loadable float (entry.2.priorityRank.elim .null .num) := by
        cases hn : entry.2.priorityRank with
        | none => trivial
        | some n => exact h.ranks ai hai entry hentry n hn
      simp [annotationJson, Loadable, LoadableMembers, loadable_ofOption, hrank]
  refine ⟨by simp, loadableMembers_iff.mpr ?_⟩
  simp only [List.forall_mem_cons]
  exact ⟨trivial, trivial, trivial, hgroups, loadable_texts _, hannotations, List.forall_mem_nil _⟩

theorem loadable_payload {dumps : Dumps} {report : ScanReport} (h : Printable float dumps report) :
    Loadable float (.obj (payload dumps report)) := by
  have hfindings : Loadable float (.arr (report.findings.map dumps.finding)) := by
    refine loadableItems_iff.mpr fun value hvalue ↦ ?_
    obtain ⟨f, hf, rfl⟩ := List.mem_map.mp hvalue
    exact h.finding f hf
  refine ⟨?_, loadableMembers_iff.mpr ?_⟩
  · cases hproofs : report.proofs <;> cases hadvice : report.advice <;>
      simp [payload, hproofs, hadvice]
  · simp only [payload, List.mem_append, List.mem_cons, List.not_mem_nil, or_false,
      Option.mem_toList, Option.map_eq_some_iff]
    rintro member ((((rfl | rfl | rfl)) | ⟨proofs, hproofs, rfl⟩) | ⟨ai, hai, rfl⟩)
    · exact h.scan
    · exact loadable_summary h
    · exact hfindings
    · exact loadable_proofs h hproofs
    · exact loadable_advice h hai

/-! ## Reading a report back -/

theorem loads_ofPretty {value : Json} (h : Loadable float value) :
    loads float (String.ofList (value.pretty 0)).toList = .ok value := by
  rw [String.toList_ofList, ← List.append_nil (value.pretty 0)]
  exact loads_pretty h (List.forall_mem_nil _)

/-- Nothing is lost in the JSON report, and nothing but the report is in it. -/
theorem loads_render_json {real : ℚ → PyFloat} {dumps : Dumps} {report : ScanReport} {fmt : String}
    (hfmt : lower fmt = "json") (h : Printable float dumps report) :
    ∃ text, render real dumps report fmt = .ok text ∧
      loads float text.toList = .ok (.obj (payload dumps report)) := by
  refine ⟨toJson dumps report, ?_, loads_ofPretty (loadable_payload h)⟩
  simp only [render, hfmt, if_true]

/-! ## A report of one finding -/

def zeroFloat : PyFloat := ⟨"0.0", false, some 0⟩

/-- A number may have no exponent. -/
theorem noExponent : ([] : List Char) = [] ∨ ∃ e s ds, ([] : List Char) = e :: s ++ ds ∧
    (e = 'e' ∨ e = 'E') ∧ (s = [] ∨ s = ['+'] ∨ s = ['-']) ∧ JsonText.Digits ds := Or.inl rfl

/-- The parts of the text of a zero. -/
def zeroParts : NumberParts where
  sign := []
  int := ['0']
  fraction := ['.', '0']
  exponent := []
  sign_ok := Or.inl rfl
  int_ok := ⟨List.cons_ne_nil _ _, rfl⟩
  zero_ok := Or.inl rfl
  fraction_ok := Or.inr ⟨['0'], rfl, List.cons_ne_nil _ _, rfl⟩
  exponent_ok := noExponent

theorem reread_zeroFloat : Reread (fun _ ↦ zeroFloat) zeroFloat :=
  ⟨Or.inl ⟨zeroParts, rfl, by simp [zeroParts]⟩, rfl⟩

def epoch : Json := .str "1970-01-01T00:00:00Z"

/-- The dumps of records all of whose times are the epoch, and that carry no evidence. -/
def plainDumps : Dumps where
  scan scan :=
    .obj [("id", .str scan.id), ("tenant_id", .str scan.tenantId),
      ("target_id", .str scan.targetId),
      ("policy", .obj [("profile", .str scan.policy.profile.value), ("capabilities", .null),
        ("disabled_engines", .texts scan.policy.disabledEngines),
        ("allowed_methods", .texts ["GET", "HEAD", "OPTIONS", "POST"]),
        ("max_duration_minutes", .num 240), ("max_total_requests", .null),
        ("template_tags_denylist", .texts scan.policy.templateTagsDenylist)]),
      ("state", .str scan.state.value), ("state_reason", .ofOption scan.stateReason),
      ("created_by", .str scan.createdBy), ("created_at", epoch),
      ("started_at", scan.startedAt.elim .null fun _ ↦ epoch),
      ("finished_at", scan.finishedAt.elim .null fun _ ↦ epoch)]
  finding f :=
    .obj [("id", .str f.id), ("tenant_id", .str f.tenantId), ("scan_id", .str f.scanId),
      ("target_id", .str f.targetId), ("fingerprint", .str f.fingerprint), ("title", .str f.title),
      ("category", .str f.category), ("severity", .str f.severity.value),
      ("confidence", .str f.confidence.value), ("risk_score", .real zeroFloat),
      ("cwe", .arr []), ("owasp", .texts f.owasp), ("host", .str f.host), ("port", .num 443),
      ("endpoint", .str f.endpoint), ("method", .ofOption f.method),
      ("parameter", .ofOption f.parameter), ("affected_urls", .texts f.affectedUrls),
      ("description", .str f.description), ("remediation", .str f.remediation),
      ("references", .texts f.references), ("engines", .texts f.engines),
      ("detectors", .texts f.detectors), ("observation_ids", .texts f.observationIds),
      ("evidence", .arr []), ("status", .str "open"), ("first_seen", epoch),
      ("last_seen", epoch)]

def plainReport : ScanReport := { demoScanReport with findings := [demoFinding] }

theorem short_of_small {n : ℕ} (h : n < 1000) : Short n := by
  have hdigits : (Nat.toDigits 10 n).length ≤ 3 :=
    (Nat.length_toDigits_le_iff (by decide) (by decide)).mpr h
  exact le_trans hdigits (by decide)

theorem lt_pow_of_small {n : ℕ} (h : n < 1000) : n < 10 ^ maxIntDigits :=
  (Nat.length_toDigits_le_iff (by decide) (by decide)).mp (short_of_small h)

theorem loadable_epoch : Loadable float epoch := trivial

theorem loadable_plainScan (scan : Vantage.Scan) :
    Loadable (fun _ ↦ zeroFloat) (plainDumps.scan scan) := by
  have hminutes : Short 240 := short_of_small (show 240 < 1000 by decide)
  have hstamp : ∀ t : Option Time, Loadable (fun _ ↦ zeroFloat) (t.elim .null fun _ ↦ epoch) := by
    intro t
    cases t <;> trivial
  simp [plainDumps, Loadable, LoadableMembers, loadable_texts, loadable_ofOption, hminutes, hstamp,
    loadable_epoch]

theorem printable_plainReport : Printable (fun _ ↦ zeroFloat) plainDumps plainReport where
  scan := loadable_plainScan _
  finding f _ := by
    have hport : Short 443 := short_of_small (show 443 < 1000 by decide)
    simp [plainDumps, Loadable, LoadableMembers, LoadableItems, loadable_texts, loadable_ofOption,
      hport, reread_zeroFloat, loadable_epoch]
  findings := lt_pow_of_small (show 1 < 1000 by decide)
  observations := lt_pow_of_small (show 2 < 1000 by decide)
  bundles := nofun
  groups := nofun
  annotations := nofun
  ranks := nofun

theorem loads_render_json_plainReport :
    ∃ text, render (fun _ ↦ zeroFloat) plainDumps plainReport "JSON" = .ok text ∧
      loads (fun _ ↦ zeroFloat) text.toList = .ok (.obj (payload plainDumps plainReport)) :=
  loads_render_json (by decide) printable_plainReport

/-! ## Reading a SARIF report -/

/-- `d[key]`. -/
def member (value : Json) (key : String) : Json := Json.get value.membersOf key

def itemsOf : Json → List Json
  | .arr items => items
  | _ => []

/-- The run of a SARIF document. -/
def sarifRun (doc : Json) : Json := (itemsOf (member doc "runs")).headD .null

def readResults (doc : Json) : List Json := itemsOf (member (sarifRun doc) "results")

def readRules (doc : Json) : List Json :=
  itemsOf (member (member (member (sarifRun doc) "tool") "driver") "rules")

/-- A document says of each finding, in their order, under which rule and how badly it was found,
and has one rule for each category, which its first finding describes. -/
structure Describes (doc : Json) (findings : List UnifiedFinding) : Prop where
  results : (readResults doc).map (fun result ↦ (member result "ruleId", member result "level",
      member (member result "partialFingerprints") "vantage/v1")) =
    findings.map fun f ↦ (.str f.category, .str (sarifLevel f.severity), .str f.fingerprint)
  nodup : ((readRules doc).map (member · "id")).Nodup
  rules : ∀ f ∈ findings, ∃ first, findings.find? (·.category = f.category) = some first ∧
    sarifRule first ∈ readRules doc ∧ member (sarifRule first) "id" = .str f.category
  used : ∀ rule ∈ readRules doc, ∃ f ∈ findings, rule = sarifRule f

theorem get?_sarifRules (findings : List UnifiedFinding) (category : String) :
    (sarifRules findings).get? category =
      (findings.find? (·.category = category)).map sarifRule := by
  rw [sarifRules, Dict.get?_foldl_setDefault, Dict.get?_empty, Option.none_or]

/-- The identifier of a rule is the key it is kept under. -/
theorem member_id_of_mem {findings : List UnifiedFinding} {entry : String × Json}
    (h : entry ∈ (sarifRules findings).entries) : ∃ f ∈ findings,
      findings.find? (·.category = entry.1) = some f ∧ entry = (f.category, sarifRule f) := by
  have hget := ((sarifRules findings).get?_eq_some_iff).mpr h
  rw [get?_sarifRules, Option.map_eq_some_iff] at hget
  obtain ⟨f, hfind, hrule⟩ := hget
  have hkey : f.category = entry.1 := by simpa using List.find?_some hfind
  exact ⟨f, List.mem_of_find?_eq_some hfind, hfind, Prod.ext hkey.symm hrule.symm⟩

theorem describes_sarif (real : ℚ → PyFloat) (report : ScanReport) (toolVersion : String) :
    Describes (sarif real report toolVersion) report.findings where
  results := by
    change (report.findings.map (sarifResult real)).map _ = _
    rw [List.map_map]
    rfl
  nodup := by
    have hids : (sarifRules report.findings).values.map (member · "id") =
        ((sarifRules report.findings).entries.map Prod.fst).map .str := by
      rw [Dict.values, List.map_map, List.map_map]
      refine List.map_congr_left fun entry hentry ↦ ?_
      obtain ⟨f, -, -, rfl⟩ := member_id_of_mem hentry
      rfl
    change ((sarifRules report.findings).values.map (member · "id")).Nodup
    rw [hids]
    exact (sarifRules report.findings).nodup.map fun a b h ↦ Json.str.inj h
  rules f hf := by
    have hsome : (report.findings.find? (·.category = f.category)).isSome = true :=
      List.find?_isSome.mpr ⟨f, hf, by simp⟩
    obtain ⟨first, hfirst⟩ := Option.isSome_iff_exists.mp hsome
    have hcategory : first.category = f.category := by simpa using List.find?_some hfirst
    have hget : (sarifRules report.findings).get? f.category = some (sarifRule first) := by
      rw [get?_sarifRules, hfirst, Option.map_some]
    refine ⟨first, hfirst, ((sarifRules report.findings).mem_values_iff).mpr ⟨_, hget⟩, ?_⟩
    exact congrArg Json.str hcategory
  used rule hrule := by
    obtain ⟨entry, hentry, rfl⟩ := List.mem_map.mp hrule
    obtain ⟨f, hf, -, rfl⟩ := member_id_of_mem hentry
    exact ⟨f, hf, rfl⟩

theorem loadable_sarif {real : ℚ → PyFloat} {report : ScanReport} (toolVersion : String)
    (h : ∀ f ∈ report.findings, Reread float (real f.riskScore)) :
    Loadable float (sarif real report toolVersion) := by
  have hrules : LoadableItems float (sarifRules report.findings).values := by
    refine loadableItems_iff.mpr fun value hvalue ↦ ?_
    obtain ⟨entry, hentry, rfl⟩ := List.mem_map.mp hvalue
    obtain ⟨f, -, -, rfl⟩ := member_id_of_mem hentry
    simp [sarifRule, Loadable, LoadableMembers, loadable_texts]
  have hresults : LoadableItems float (report.findings.map (sarifResult real)) := by
    refine loadableItems_iff.mpr fun value hvalue ↦ ?_
    obtain ⟨f, hf, rfl⟩ := List.mem_map.mp hvalue
    simp [sarifResult, Loadable, LoadableMembers, LoadableItems, loadable_texts, h f hf]
  simp [sarif, Loadable, LoadableMembers, LoadableItems, hrules, hresults]

/-- Whatever the findings are, the SARIF report is a document that describes them. -/
theorem loads_render_sarif {real : ℚ → PyFloat} {dumps : Dumps} {report : ScanReport}
    {fmt : String} (hfmt : lower fmt = "sarif")
    (h : ∀ f ∈ report.findings, Reread float (real f.riskScore)) :
    ∃ text doc, render real dumps report fmt = .ok text ∧ loads float text.toList = .ok doc ∧
      Describes doc report.findings := by
  refine ⟨toSarif real report, sarif real report "0.1.0", ?_,
    loads_ofPretty (loadable_sarif "0.1.0" h), describes_sarif real report "0.1.0"⟩
  have hjson : ¬ ("sarif" = "json") := by decide
  simp only [render, hfmt, if_neg hjson, if_true]

theorem loads_render_sarif_plainReport :
    ∃ text doc, render (fun _ ↦ zeroFloat) plainDumps plainReport "sarif" = .ok text ∧
      loads (fun _ ↦ zeroFloat) text.toList = .ok doc ∧ Describes doc plainReport.findings :=
  loads_render_sarif (by decide) fun _ _ ↦ reread_zeroFloat

end Vantage.Findings
