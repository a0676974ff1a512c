import Vantage.Findings.Markdown

/-!
# The JSON report and the confirmed-only view

The filter drops findings and their proof bundles; the assessment of the report
is printed as it is.
-/

namespace Vantage.Findings

open Ai

/-! ## What is printed -/

/-- The dumps of the records that the report holds. -/
structure Dumps where
  scan : Vantage.Scan → Json
  finding : UnifiedFinding → Json

def annotationJson (a : AiAnnotation) : Json :=
  .obj [("priority_rank", a.priorityRank.elim .null .num),
    ("likely_false_positive", .bool a.likelyFalsePositive), ("explanation", .str a.explanation),
    ("remediation", .str a.remediation), ("group_id", .ofOption a.groupId),
    ("rationale", .str a.rationale)]

def adviceJson (ai : AiAssessment) : Json :=
  .obj [("provider", .str ai.provider), ("model", .str ai.model),
    ("model_license", .str ai.modelLicense),
    ("groups", .obj (ai.groups.map fun group ↦ (group.1, .texts group.2))),
    ("notes", .texts ai.notes),
    ("annotations", .obj (ai.annotations.map fun entry ↦ (entry.1, annotationJson entry.2)))]

def proofsJson (proofs : ProofReport) : Json :=
  .obj [("signed", .bool proofs.signed), ("confirmed_count", .num proofs.confirmed.length),
    ("bundles", .arr (proofs.proofs.map fun p ↦ .obj p.toDict))]

def summaryJson (report : ScanReport) : Json :=
  .obj [("findings", .num report.findings.length),
    ("by_severity", .obj ((summarize report.findings).map fun count ↦ (count.1, .num count.2))),
    ("observations", .num report.observations), ("engines_run", .texts report.enginesRun),
    ("engines_failed", .texts report.enginesFailed),
    ("skipped_capabilities", .texts report.skippedCapabilities)]

/-- The members of the object that `to_json` prints. -/
def payload (dumps : Dumps) (report : ScanReport) : List (String × Json) :=
  [("scan", dumps.scan report.scan), ("summary", summaryJson report),
    ("findings", .arr (report.findings.map dumps.finding))] ++
  (report.proofs.map fun proofs ↦ ("proofs", proofsJson proofs)).toList ++
  (report.advice.map fun ai ↦ ("ai", adviceJson ai)).toList

def textsOf : Json → List String
  | .arr items => items.filterMap Json.str?
  | _ => []

/-- The identifiers of findings in the annotations and in the groups of a printed report. -/
def printedIds (printed : List (String × Json)) : List String :=
  let ai := Json.membersOf (Json.get printed "ai")
  (Json.membersOf (Json.get ai "annotations")).map Prod.fst ++
    (Json.membersOf (Json.get ai "groups")).flatMap fun group ↦ textsOf group.2

/-- The identifiers that an assessment speaks of. -/
def mentionedIds (ai : AiAssessment) : List String :=
  ai.annotations.map Prod.fst ++ ai.groups.flatMap Prod.snd

theorem textsOf_texts (l : List String) : textsOf (.texts l) = l := by
  simp only [textsOf, Json.texts, List.filterMap_map]
  exact List.filterMap_some

theorem printedIds_payload (dumps : Dumps) (report : ScanReport) :
    printedIds (payload dumps report) = (report.advice.map mentionedIds).getD [] := by
  have hproofs : (report.proofs.map fun proofs ↦ ("proofs", proofsJson proofs)).toList.find?
      (·.1 = "ai") = none := by
    cases report.proofs <;> rfl
  have hlookup : Json.get (payload dumps report) "ai" = (report.advice.map adviceJson).getD .null := by
    simp only [Json.get, Json.getD, Json.lookup, payload, List.find?_append, hproofs]
    cases report.advice <;> rfl
  rw [printedIds, hlookup]
  cases report.advice with
  | none => rfl
  | some ai =>
      change (ai.annotations.map fun entry ↦ (entry.1, annotationJson entry.2)).map Prod.fst ++
        (ai.groups.map fun group ↦ (group.1, Json.texts group.2)).flatMap
          (fun group ↦ textsOf group.2) = mentionedIds ai
      simp only [List.map_map, List.flatMap_map, textsOf_texts, mentionedIds]
      rfl

/-! ## What the filter keeps -/

/-- The bundles of a report are those of its findings, which have identifiers of their own. -/
structure Proven (d : Digests) (engine : ProofEngine) (signed : Bool) (report : ScanReport) :
    Prop where
  proofs : report.proofs = some ⟨report.findings.map (engine.build d), signed⟩
  nodup : (report.findings.map UnifiedFinding.id).Nodup

/-- The verdict of the bundle of a finding is confirmed or corroborated. -/
def confirmedBundle (report : ScanReport) (f : UnifiedFinding) : Bool :=
  (proofFor report f.id).any fun p ↦ confirmedVerdicts.contains p.verdict

/-- The view holds the findings with such a verdict, their bundles, and no
identifier of any other finding; filtering it again changes nothing. -/
structure Closed (dumps : Dumps) (report : ScanReport) : Prop where
  findings : (filterConfirmed report).findings = report.findings.filter (confirmedBundle report)
  bundles : (filterConfirmed report).proofs.map ProofReport.proofs =
    some ((filterConfirmed report).findings.filterMap fun f ↦ proofFor report f.id)
  printed : ∀ id ∈ printedIds (payload dumps (filterConfirmed report)),
    id ∈ (filterConfirmed report).findings.map UnifiedFinding.id
  idempotent : filterConfirmed (filterConfirmed report) = filterConfirmed report

variable {d : Digests} {engine : ProofEngine} {signed : Bool} {report : ScanReport}
  {dumps : Dumps} {f : UnifiedFinding}

namespace Proven

theorem proofFor_eq (h : Proven d engine signed report) (hf : f ∈ report.findings) :
    proofFor report f.id = some (engine.build d f) := by
  have hfind : report.findings.find? (fun f' ↦ f'.id = f.id) = some f := by
    cases hfound : report.findings.find? (fun f' ↦ f'.id = f.id) with
    | none => exact absurd (decide_eq_true rfl) (List.find?_eq_none.mp hfound f hf)
    | some f' =>
        have hid : f'.id = f.id := by simpa using List.find?_some hfound
        rw [List.inj_on_of_nodup_map h.nodup (List.mem_of_find?_eq_some hfound) hf hid]
  rw [proofFor, h.proofs, Option.bind_some, List.find?_map]
  simp only [Function.comp_def, build_findingId, hfind, Option.map_some]

theorem confirmedBundle_eq (h : Proven d engine signed report) (hf : f ∈ report.findings) :
    confirmedBundle report f = confirmedVerdicts.contains (verdictFor f) := by
  rw [confirmedBundle, h.proofFor_eq hf, Option.any_some, build_verdict]

theorem filterConfirmed_eq (h : Proven d engine signed report) : filterConfirmed report =
    { report with
      findings := report.findings.filter (confirmedBundle report)
      proofs := some ⟨(report.findings.filter (confirmedBundle report)).map (engine.build d),
        signed⟩ } := by
  have hids : ∀ f ∈ report.findings, (((report.findings.map (engine.build d)).filter fun p ↦
      confirmedVerdicts.contains p.verdict).map ProofOfVulnerability.findingId).contains f.id =
        confirmedBundle report f := by
    intro f hf
    rw [h.confirmedBundle_eq hf, Bool.eq_iff_iff, List.contains_iff_mem, List.contains_iff_mem]
    simp only [List.mem_map, List.mem_filter, List.contains_iff_mem]
    constructor
    · rintro ⟨_, ⟨⟨f', hf', rfl⟩, hverdict⟩, hid⟩
      rw [build_findingId] at hid
      obtain rfl := List.inj_on_of_nodup_map h.nodup hf' hf hid
      rwa [build_verdict] at hverdict
    · intro hverdict
      exact ⟨_, ⟨⟨f, hf, rfl⟩, by rwa [build_verdict]⟩, build_findingId⟩
  have hproofs : (report.findings.map (engine.build d)).filter (fun p ↦
      (((report.findings.map (engine.build d)).filter fun p ↦
        confirmedVerdicts.contains p.verdict).map ProofOfVulnerability.findingId).contains
          p.findingId) = (report.findings.filter (confirmedBundle report)).map (engine.build d) := by
    rw [List.filter_map]
    congr 1
    apply List.filter_congr
    intro f hf
    rw [Function.comp_apply, build_findingId]
    exact hids f hf
  simp only [filterConfirmed, h.proofs, ProofReport.confirmed]
  rw [List.filter_congr hids, hproofs]

/-- The view is a report of the same kind. -/
theorem filtered (h : Proven d engine signed report) :
    Proven d engine signed (filterConfirmed report) := by
  rw [h.filterConfirmed_eq]
  exact ⟨rfl, h.nodup.sublist (List.filter_sublist.map _)⟩

theorem confirmedBundle_filtered (h : Proven d engine signed report)
    (hf : f ∈ (filterConfirmed report).findings) :
    confirmedBundle (filterConfirmed report) f = true := by
  rw [h.filtered.confirmedBundle_eq hf]
  rw [h.filterConfirmed_eq] at hf
  obtain ⟨hf, hkept⟩ := List.mem_filter.mp hf
  rwa [h.confirmedBundle_eq hf] at hkept

/-- All but the printed identifiers is as it should be. -/
theorem closed_iff (h : Proven d engine signed report) : Closed dumps report ↔
    ∀ id ∈ printedIds (payload dumps (filterConfirmed report)),
      id ∈ (filterConfirmed report).findings.map UnifiedFinding.id := by
  refine ⟨Closed.printed, fun hprinted ↦ ⟨?_, ?_, hprinted, ?_⟩⟩
  · rw [h.filterConfirmed_eq]
  · rw [h.filtered.proofs, Option.map_some, Option.some_inj]
    have hbundles : ∀ f ∈ (filterConfirmed report).findings,
        proofFor report f.id = some (engine.build d f) := by
      intro f hf
      rw [h.filterConfirmed_eq] at hf
      exact h.proofFor_eq (List.mem_of_mem_filter hf)
    rw [List.filterMap_congr hbundles, List.filterMap_eq_map']
  · rw [h.filtered.filterConfirmed_eq,
      List.filter_eq_self.mpr fun f hf ↦ h.confirmedBundle_filtered hf, ← h.filtered.proofs]

/-- The view is closed exactly when each finding that the assessment speaks of is confirmed. -/
theorem closed_iff_confirmed (h : Proven d engine signed report)
    (hknown : ∀ ai, report.advice = some ai → ∀ id ∈ mentionedIds ai,
      id ∈ report.findings.map UnifiedFinding.id) :
    Closed dumps report ↔ ∀ ai, report.advice = some ai → ∀ f ∈ report.findings,
      f.id ∈ mentionedIds ai → verdictFor f ∈ confirmedVerdicts := by
  have hadvice : (filterConfirmed report).advice = report.advice := by rw [h.filterConfirmed_eq]; rfl
  have hkept : ∀ f ∈ report.findings, f.id ∈ (filterConfirmed report).findings.map
      UnifiedFinding.id ↔ verdictFor f ∈ confirmedVerdicts := by
    intro f hf
    rw [h.filterConfirmed_eq, List.mem_map, ← List.contains_iff_mem, ← h.confirmedBundle_eq hf]
    constructor
    · rintro ⟨f', hf', hid⟩
      obtain ⟨hf', hconfirmed⟩ := List.mem_filter.mp hf'
      rwa [← List.inj_on_of_nodup_map h.nodup hf' hf hid]
    · intro hconfirmed
      exact ⟨f, List.mem_filter.mpr ⟨hf, hconfirmed⟩, rfl⟩
  rw [h.closed_iff, printedIds_payload, hadvice]
  cases hai : report.advice with
  | none => simp
  | some ai =>
      simp only [Option.map_some, Option.getD_some, Option.some_inj, forall_eq']
      constructor
      · intro hclosed f hf hmentioned
        exact (hkept f hf).mp (hclosed _ hmentioned)
      · intro hconfirmed id hid
        obtain ⟨f, hf, rfl⟩ := List.mem_map.mp (hknown ai hai id hid)
        exact (hkept f hf).mpr (hconfirmed f hf hid)

end Proven

end Vantage.Findings
