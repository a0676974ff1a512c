import Vantage.Findings.Reporting
import Vantage.Findings.Risk
import Vantage.Lib.Ranking

/-!
# The Markdown report

The findings of a report are listed in its order, and the first twenty of them
are detailed. Correlation puts them in the order of severity and confidence;
they are scored afterwards.
-/

namespace Vantage.Findings

open Text
open Grouping hiding sortedSet sortedSet_congr

/-! ## The text -/

def severities : List Severity := [.info, .low, .medium, .high, .critical]

def summarize (findings : List UnifiedFinding) : List (String × ℕ) :=
  severities.map fun sev ↦ (sev.value, findings.countP (·.severity = sev))

/-- `f"{score:.0f}"` of a score that is not negative. -/
def wholeScore (score : ℚ) : String := toString (roundHalfEven score)

def proofFor (report : ScanReport) (findingId : String) : Option ProofOfVulnerability :=
  report.proofs.bind fun proofs ↦ proofs.proofs.find? (·.findingId = findingId)

/-- The assessment, unless it is disabled. -/
def ScanReport.advice (report : ScanReport) : Option Ai.AiAssessment :=
  report.ai.filter Ai.AiAssessment.enabled

def headerLines (report : ScanReport) : List String :=
  ["# Vantage DAST report - scan `" ++ report.scan.id ++ "`", "",
    "- Target: `" ++ report.scan.targetId ++ "`",
    "- State: **" ++ report.scan.state.value ++ "**",
    "- Findings: **" ++ toString report.findings.length ++ "** across " ++
      toString report.observations ++ " observations",
    "- Severity: " ++ join ", " ((summarize report.findings).reverse.map fun count ↦
      upper count.1 ++ "=" ++ toString count.2),
    "- Engines run: " ++ orElse (some (join ", " report.enginesRun)) "(none)"] ++
  (if report.enginesFailed = [] then []
    else ["- Engines failed: " ++ join ", " report.enginesFailed]) ++
  (if report.skippedCapabilities = [] then []
    else ["- Skipped capabilities: " ++ toString report.skippedCapabilities.length]) ++ [""]

def proofLines (report : ScanReport) : List String :=
  match report.proofs with
  | none => []
  | some proofs =>
      if report.findings = [] then []
      else
        ["- Proof: **" ++ toString proofs.confirmed.length ++ "/" ++
          toString report.findings.length ++
          "** findings carry a confirmed/corroborated Proof-of-Vulnerability bundle" ++
          (if proofs.signed then " · signed (tamper-evident)" else ""), ""]

def adviceLines (report : ScanReport) : List String :=
  match report.advice with
  | none => []
  | some ai =>
      ["- AI assist: **" ++ ai.provider ++ "/" ++ ai.model ++ "** (" ++ ai.modelLicense ++ ") — " ++
        toString ai.annotations.length ++ " annotated, " ++ toString ai.groups.length ++
        " group(s). _AI is advisory; it annotates deterministic findings and never adds evidence._",
        ""]

def tableRow (f : UnifiedFinding) : String :=
  "| " ++ wholeScore f.riskScore ++ " | " ++ f.severity.value ++ " | " ++ f.confidence.value ++
    " | " ++ f.category ++ " | `" ++ orElse f.method "ANY" ++ " " ++ f.endpoint ++ "` | " ++
    join ", " f.engines ++ " |"

def annotationLines (report : ScanReport) (f : UnifiedFinding) : List String :=
  match report.advice.bind fun ai ↦ ai.annotations.find? (·.1 = f.id) with
  | none => []
  | some (_, ann) =>
      (if ann.likelyFalsePositive then
        ["- **AI (advisory):** flagged as a *likely false positive* — verify."] else []) ++
      (if ann.explanation = "" then []
        else ["- **AI explanation (advisory):** " ++ ann.explanation])

def bundleLines (report : ScanReport) (f : UnifiedFinding) : List String :=
  match proofFor report f.id with
  | none => []
  | some proof =>
      ["- **Proof:** verdict **" ++ proof.verdict ++ "**" ++
        (if proof.signed then " · signed" else "") ++ " · integrity `" ++
        String.ofList (proof.integritySha256.toList.take 12) ++ "…`",
        "  - Differential: " ++ proof.differential,
        "  - Reproduce: " ++ join "; " (proof.reproduction.map fun s ↦
          toString s.order ++ ") " ++ s.action)]

def detailLines (report : ScanReport) (f : UnifiedFinding) : List String :=
  ["", "### [" ++ upper f.severity.value ++ "] " ++ f.title,
    "- **Risk:** " ++ wholeScore f.riskScore ++ "  **Confidence:** " ++ f.confidence.value,
    "- **Location:** `" ++ f.host ++ ":" ++ toString f.port ++ f.endpoint ++ "`"] ++
  (match f.parameter with
    | none => []
    | some parameter => if parameter = "" then [] else ["- **Parameter:** `" ++ parameter ++ "`"]) ++
  (if f.cwe = [] then []
    else ["- **CWE:** " ++ join ", " (f.cwe.map fun c ↦ "CWE-" ++ toString c)]) ++
  (if f.owasp = [] then [] else ["- **OWASP:** " ++ join ", " f.owasp]) ++
  ["- **Detected by:** " ++ join ", " f.detectors] ++
  (if f.description = "" then [] else ["- **Description:** " ++ f.description]) ++
  (if f.remediation = "" then [] else ["- **Remediation:** " ++ f.remediation]) ++
  annotationLines report f ++ bundleLines report f

def detailLimit : ℕ := 20

/-- The findings below the heading of the details. -/
def ScanReport.detailed (report : ScanReport) : List UnifiedFinding :=
  report.findings.take detailLimit

def toMarkdown (report : ScanReport) : String :=
  let start := headerLines report ++ proofLines report ++ adviceLines report
  if report.findings = [] then join "\n" (start ++ ["_No findings._"])
  else join "\n" (start ++
    ["## Findings", "", "| Risk | Severity | Confidence | Category | Endpoint | Engines |",
      "|------|----------|------------|----------|----------|---------|"] ++
    report.findings.map tableRow ++ ["", "## Details (top 20 by risk)"] ++
    report.detailed.flatMap (detailLines report))

/-! ## The issues of a list of observations -/

def issueRank (g : Group String Observation) : ℕ ×ₗ ℤ :=
  toLex ((severityOf g).rank, (confidenceOf g).rank)

variable (sha256 : List UInt8 → String) (e : CorrelationEngine) (newId : ℕ → String)
  (observations : List Observation)

/-- The number of issues that are more severe than the i-th one, or as severe and
more certain, or the same in both and reported earlier. -/
def issuesAhead (i : ℕ) : ℕ :=
  Ranking.place issueRank (groupBy (observationKey sha256) observations) i

/-- The score of an issue; the identifiers do not matter. -/
def issueScore (g : Group String Observation) : ℚ :=
  (RiskEngine.apply (e.merge sha256 "" g)).riskScore

/-- The report on the scored findings, without an assessment. -/
def scoredReport (report : ScanReport) : ScanReport :=
  { report with
    findings := (e.correlate sha256 newId observations).map RiskEngine.apply
    ai := none }

variable {sha256 e newId observations} {report : ScanReport} {f : UnifiedFinding} {i : ℕ}

theorem correlate_eq_ranked : e.correlate sha256 newId observations =
    Ranking.ranked findingRank (e.mergeAll sha256 newId observations) := rfl

theorem getElem?_mergeAll : (e.mergeAll sha256 newId observations)[i]? =
    (groupBy (observationKey sha256) observations)[i]?.map (e.merge sha256 (newId i)) :=
  List.getElem?_mapIdx

theorem place_mergeAll : Ranking.place findingRank (e.mergeAll sha256 newId observations) i =
    issuesAhead sha256 observations i := by
  have hranks : (e.mergeAll sha256 newId observations).map findingRank =
      (groupBy (observationKey sha256) observations).map issueRank := by
    apply List.ext_getElem?
    intro j
    rw [List.getElem?_map, List.getElem?_map, getElem?_mergeAll, Option.map_map]
    exact Option.map_congr fun g _ ↦ rfl
  exact Ranking.place_congr hranks i

theorem mem_scoredReport_iff : f ∈ (scoredReport sha256 e newId observations report).findings ↔
    ∃ i g, (groupBy (observationKey sha256) observations)[i]? = some g ∧
      f = RiskEngine.apply (e.merge sha256 (newId i) g) := by
  constructor
  · intro hf
    obtain ⟨f', hf', rfl⟩ := List.mem_map.mp hf
    have hmerged : f' ∈ e.mergeAll sha256 newId observations := (List.mem_insertionSort _).mp hf'
    obtain ⟨i, hi⟩ := List.mem_iff_getElem?.mp hmerged
    rw [getElem?_mergeAll] at hi
    obtain ⟨g, hg, rfl⟩ := Option.map_eq_some_iff.mp hi
    exact ⟨i, g, hg, rfl⟩
  · rintro ⟨i, g, hg, rfl⟩
    have hi : (e.mergeAll sha256 newId observations)[i]? = some (e.merge sha256 (newId i) g) := by
      rw [getElem?_mergeAll, hg, Option.map_some]
    exact List.mem_map_of_mem ((List.mem_insertionSort _).mpr (List.mem_of_getElem? hi))

/-- A finding is detailed when fewer than twenty issues are ahead of its own. -/
theorem mem_detailed_iff : f ∈ (scoredReport sha256 e newId observations report).detailed ↔
    ∃ i g, (groupBy (observationKey sha256) observations)[i]? = some g ∧
      issuesAhead sha256 observations i < detailLimit ∧
        f = RiskEngine.apply (e.merge sha256 (newId i) g) := by
  simp only [ScanReport.detailed, scoredReport, ← List.map_take, List.mem_map,
    correlate_eq_ranked, Ranking.mem_take_ranked_iff, place_mergeAll, getElem?_mergeAll,
    Option.map_eq_some_iff]
  constructor
  · rintro ⟨_, ⟨i, ⟨g, hg, rfl⟩, hahead⟩, rfl⟩
    exact ⟨i, g, hg, hahead, rfl⟩
  · rintro ⟨i, g, hg, hahead, rfl⟩
    exact ⟨_, ⟨i, ⟨g, hg, rfl⟩, hahead⟩, rfl⟩

theorem riskScore_merge (id : String) (g : Group String Observation) :
    (RiskEngine.apply (e.merge sha256 id g)).riskScore = issueScore sha256 e g :=
  riskScore_congr rfl rfl rfl rfl

/-- Two issues with one key are the same. -/
theorem index_eq_of_key {j : ℕ} {g g' : Group String Observation}
    (hg : (groupBy (observationKey sha256) observations)[i]? = some g)
    (hg' : (groupBy (observationKey sha256) observations)[j]? = some g')
    (hkey : g.key = g'.key) : i = j := by
  have hnodup := (partitions_groupBy (observationKey sha256) observations).nodup
  obtain ⟨hi, hgi⟩ := List.getElem?_eq_some_iff.mp hg
  obtain ⟨hj, hgj⟩ := List.getElem?_eq_some_iff.mp hg'
  let keys := (groupBy (observationKey sha256) observations).map Group.key
  have hindex : i < keys.length := by rwa [List.length_map]
  have hindex' : j < keys.length := by rwa [List.length_map]
  have hequal : keys[i] = keys[j] := by rw [List.getElem_map, List.getElem_map, hgi, hgj, hkey]
  exact hnodup.getElem_inj_iff.mp hequal

/-- An issue with twenty others ahead of it is listed without details. -/
theorem notMem_detailed {g : Group String Observation}
    (hg : (groupBy (observationKey sha256) observations)[i]? = some g)
    (hahead : detailLimit ≤ issuesAhead sha256 observations i) :
    RiskEngine.apply (e.merge sha256 (newId i) g) ∉
      (scoredReport sha256 e newId observations report).detailed := by
  intro hmem
  obtain ⟨j, g', hg', hlt, hsame⟩ := mem_detailed_iff.mp hmem
  obtain rfl : i = j := index_eq_of_key hg hg' (congrArg UnifiedFinding.fingerprint hsame)
  exact absurd hlt (not_lt.mpr hahead)

/-- The report details the riskiest findings. -/
def DetailsRiskiest (report : ScanReport) : Prop :=
  ∀ f ∈ report.detailed, ∀ f' ∈ report.findings, f' ∉ report.detailed → f'.riskScore ≤ f.riskScore

theorem score_le_of_detailsRiskiest {j : ℕ} {g g' : Group String Observation}
    (h : DetailsRiskiest (scoredReport sha256 e newId observations report))
    (hg : (groupBy (observationKey sha256) observations)[i]? = some g)
    (hg' : (groupBy (observationKey sha256) observations)[j]? = some g')
    (hi : issuesAhead sha256 observations i < detailLimit)
    (hj : detailLimit ≤ issuesAhead sha256 observations j) :
    issueScore sha256 e g' ≤ issueScore sha256 e g := by
  have hle := h _ (mem_detailed_iff.mpr ⟨i, g, hg, hi, rfl⟩) _
    (mem_scoredReport_iff.mpr ⟨j, g', hg', rfl⟩) (notMem_detailed hg' hj)
  rwa [riskScore_merge, riskScore_merge] at hle

/-- The riskiest findings are detailed exactly when no issue that is left without
details scores higher than one of those in front of it. -/
theorem detailsRiskiest_iff (sha256 : List UInt8 → String) (e : CorrelationEngine)
    (newId : ℕ → String) (observations : List Observation) (report : ScanReport) :
    DetailsRiskiest (scoredReport sha256 e newId observations report) ↔
      ∀ i j g g', (groupBy (observationKey sha256) observations)[i]? = some g →
        (groupBy (observationKey sha256) observations)[j]? = some g' →
          issuesAhead sha256 observations i < detailLimit →
            detailLimit ≤ issuesAhead sha256 observations j →
              issueScore sha256 e g' ≤ issueScore sha256 e g := by
  constructor
  · intro h i j g g' hg hg' hi hj
    exact score_le_of_detailsRiskiest h hg hg' hi hj
  · intro h f hf f' hf' hnot
    obtain ⟨i, g, hg, hi, rfl⟩ := mem_detailed_iff.mp hf
    obtain ⟨j, g', hg', rfl⟩ := mem_scoredReport_iff.mp hf'
    have hj : detailLimit ≤ issuesAhead sha256 observations j := by
      by_contra hlt
      exact hnot (mem_detailed_iff.mpr ⟨j, g', hg', not_le.mp hlt, rfl⟩)
    rw [riskScore_merge, riskScore_merge]
    exact h i j g g' hg hg' hi hj

/-- The digests of the texts that the pages below are keyed on. -/
def pageDigests : List (Char × ℕ) :=
  [('a', 0x5cb9f3c119939285f714bd230a5217765a07be6138fe13059f29896825108007),
    ('b', 0x664fa1bbc3fd770981648eb2dae04b73f9d076f0cba668fe756015a15c53e2f2),
    ('c', 0xcdffb1092835e8705e24594c4eb6e7f37b8945142e6f0c0221d462180d931e63),
    ('d', 0xe5ebe940387b98e7beda0122b59a82563f59936030180aa8c6c1fd297bc4f5fd),
    ('e', 0x11adc05bbcd3ae0541cb93800af590667ceef853cf7fd17c1f5641ce283cada0),
    ('f', 0xb136c05c36252f16974d1ca7f7f089a0d1be3da5128684b18c9790959c927c1c),
    ('g', 0x620a4f2179fee387b8430508a0b4c23951d518337a607fae500aa93cd6e278cc),
    ('h', 0x8e4baf5be7909678f57598ba4d3b5177c61b7b9d58cdfb5a31e03ee899225475),
    ('i', 0x218e6714afe37d358de32a2bdbd05051640199b980bdf9b8c8aaed3d04aaf736),
    ('j', 0x85a3c1cba05ca4fd66b797985ba41a01d76231d94fd91859795bef98f827ba2c),
    ('k', 0xbad3e8a5c89a9c9b58e8ee51fb0c87e33caf37e69d24f3b824ba7c655da8fb80),
    ('l', 0x3fbc8d1d66bcb95cfc657fdd0ae65d3277082f8a6c0455dc5bbd044541673980),
    ('m', 0x5bdc6700c411fe4a777e6c14585fdc46fd2526b0af0267c6820458992c9bcd6c),
    ('n', 0xf683994b576437b31c861af920f1b4ebe732b592bac76da8ec3627371f1ff2c9),
    ('o', 0x647b0cf0dd49e5f5999ec763fedd144e89bfba28e5352c91b2c68227eee0726e),
    ('p', 0x739bd56971742db7049dd7706ec096f9a5fc4a266652d5fdf34b97b14821b25a),
    ('q', 0xde61420dc2ef0f61861604ae4795a407d6865e918eb586cfd92030c6b90288de),
    ('r', 0x2ca875db66e6ead7d689c3d7cbac9bea2355fc1e3d3c8a136212631f26738c63),
    ('s', 0x254b5fe0cf52f174d7eebf8f2946bda419b78a67509ff082e2a0d31d9f838150),
    ('t', 0x7b6ac1b3021a3075b393e44f98093c6288b8176e9fdf0e5078e7b86ba5a817cd),
    ('u', 0x1dec923e6ef17ed7257987d429535242df6a9a1acdacac3f5d3dca2f4ee6c432)]

def pageDigest (m : List UInt8) : ℕ :=
  match pageDigests.find? fun entry ↦ some entry.1 = m[21]?.map fun byte ↦ Char.ofNat byte.toNat with
  | none => 0
  | some (page, digest) =>
      if m = Utf8.encode ("xss|app.example|443|/".toList ++ page :: "|*|*".toList) then digest else 0

def hexText (digest : ℕ) : List Char :=
  (List.range 64).map fun i ↦ Nat.digitChar (digest / 16 ^ (63 - i) % 16)

def pageSha256 (m : List UInt8) : String := String.ofList (hexText (pageDigest m))

def pageReport (severity : Severity) (confidence : Confidence) (page : Char) : Observation :=
  { demoReport (String.singleton page) "xss" confidence with
    severity := severity
    location := .modelValidate
      { scheme := "https"
        host := "app.example"
        port := 443
        path := String.ofList ['/', page] } }

/-- Twenty unconfirmed issues of high severity, and a confirmed one of medium severity. -/
def crowdedReports : List Observation :=
  "abcdefghijklmnopqrst".toList.map (pageReport .high .tentative) ++
    [pageReport .medium .confirmed 'u']

theorem groupBy_crowdedReports : groupBy (observationKey pageSha256) crowdedReports =
    crowdedReports.map fun o ↦ ⟨observationKey pageSha256 o, o, []⟩ := by
  have hkey : ∀ o, observationKey pageSha256 o = String.ofList ((hexText (pageDigest
      (Utf8.encode (keyText (classOf o).key o.location).toList))).take 32) := by
    intro o
    rw [observationKey, fingerprint, pageSha256, String.toList_ofList]
  have hdigests : (crowdedReports.map fun o ↦ pageDigest
      (Utf8.encode (keyText (classOf o).key o.location).toList)) = pageDigests.map Prod.snd := by
    decide +kernel
  have hnodup : (pageDigests.map fun entry ↦ (hexText entry.2).take 32).Nodup := by decide +kernel
  have hkeys : crowdedReports.map (observationKey pageSha256) =
      (pageDigests.map fun entry ↦ (hexText entry.2).take 32).map String.ofList := by
    have htexts := congrArg (List.map fun n ↦ String.ofList ((hexText n).take 32)) hdigests
    rw [List.map_map, List.map_map] at htexts
    rw [List.map_map, List.map_congr_left fun o _ ↦ hkey o]
    exact htexts
  apply groupBy_of_nodup
  rw [hkeys]
  exact hnodup.map fun l l' ↦ String.ofList_injective

/-- The confirmed issue, which scores 51.5, is behind those that score 46.4. -/
theorem not_detailsRiskiest_crowdedReports : ¬ DetailsRiskiest
    (scoredReport pageSha256 demoEngine demoIds crowdedReports demoScanReport) := by
  have hfirst : (groupBy (observationKey pageSha256) crowdedReports)[0]? =
      some ⟨observationKey pageSha256 (pageReport .high .tentative 'a'),
        pageReport .high .tentative 'a', []⟩ := by
    rw [groupBy_crowdedReports]
    rfl
  have hlast : (groupBy (observationKey pageSha256) crowdedReports)[20]? =
      some ⟨observationKey pageSha256 (pageReport .medium .confirmed 'u'),
        pageReport .medium .confirmed 'u', []⟩ := by
    rw [groupBy_crowdedReports]
    rfl
  have hahead : issuesAhead pageSha256 crowdedReports 0 < detailLimit ∧
      detailLimit ≤ issuesAhead pageSha256 crowdedReports 20 := by
    rw [issuesAhead, issuesAhead, groupBy_crowdedReports]
    decide +kernel
  have hscores : ∀ key key', issueScore pageSha256 demoEngine
      ⟨key, pageReport .high .tentative 'a', []⟩ < issueScore pageSha256 demoEngine
        ⟨key', pageReport .medium .confirmed 'u', []⟩ := by
    intro key key'
    have hlow : issueScore pageSha256 demoEngine ⟨"", pageReport .high .tentative 'a', []⟩ < 50 := by
      decide +kernel
    have hhigh : 50 < issueScore pageSha256 demoEngine ⟨"", pageReport .medium .confirmed 'u', []⟩ := by
      decide +kernel
    exact hlow.trans hhigh
  intro h
  have hle := score_le_of_detailsRiskiest h hfirst hlast hahead.1 hahead.2
  exact absurd hle (not_le.mpr (hscores _ _))

end Vantage.Findings
