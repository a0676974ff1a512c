import Vantage.Findings.Markdown
import Vantage.Lib.PipeTable

/-!
# The table of the findings

The texts of a finding are put between the pipes of its row as they are.
-/

namespace Vantage.Findings

open Text PipeTable

/-- The texts of the six cells. -/
def cellsOf (f : UnifiedFinding) : List String :=
  [wholeScore f.riskScore, f.severity.value, f.confidence.value, f.category,
    "`" ++ orElse f.method "ANY" ++ " " ++ f.endpoint ++ "`", join ", " f.engines]

/-- The report down to the heading of the table. -/
def aboveTable (report : ScanReport) : String :=
  join "\n" (headerLines report ++ proofLines report ++ adviceLines report ++ ["## Findings"])

/-- The rows of the table under the heading; there is none in a report without findings. -/
def tableRows (report : ScanReport) : List (List (List Char)) :=
  if report.findings = [] then []
  else readTable ((toMarkdown report).toList.drop ((aboveTable report).toList.length + 1))

/-- The table has a row for each finding with the texts of its cells. -/
def Decodable (report : ScanReport) : Prop :=
  tableRows report = report.findings.map fun f ↦ (cellsOf f).map String.toList

/-! ## The table as it is written -/

def columnLine : String := "| Risk | Severity | Confidence | Category | Endpoint | Engines |"

def delimiterLine : String := "|------|----------|------------|----------|----------|---------|"

theorem toList_tableRow (f : UnifiedFinding) :
    (tableRow f).toList = writeRow ((cellsOf f).map String.toList) := by
  have hfirst : "| ".toList = ['|', ' '] := rfl
  have hlast : " |".toList = [' ', '|'] := rfl
  have hbetween : " | ".toList = [' ', '|', ' '] := rfl
  have hopen : " | `".toList = [' ', '|', ' ', '`'] := rfl
  have hclose : "` | ".toList = ['`', ' ', '|', ' '] := rfl
  have hquote : "`".toList = ['`'] := rfl
  unfold tableRow cellsOf writeRow
  simp only [String.toList_append, List.map_cons, List.map_nil, List.flatMap_cons,
    List.flatMap_nil, hfirst, hlast, hbetween, hopen, hclose, hquote, List.append_assoc,
    List.cons_append, List.nil_append, List.append_nil]

/-- What follows the table. -/
def belowTable (report : ScanReport) : List String :=
  "## Details (top 20 by risk)" :: report.detailed.flatMap (detailLines report)

theorem toList_joinLines (l : List String) :
    (join "\n" l).toList = ['\n'].intercalate (l.map String.toList) := by
  rw [join, String.toList_ofList]
  rfl

/-- A report is what stands down to the heading, the table and what follows. -/
theorem toList_toMarkdown {report : ScanReport} (h : report.findings ≠ []) :
    (toMarkdown report).toList = (aboveTable report).toList ++ '\n' ::
      writeTable columnLine.toList delimiterLine.toList
        (report.findings.map fun f ↦ (cellsOf f).map String.toList)
          (join "\n" (belowTable report)).toList := by
  have hrows : (report.findings.map tableRow).map String.toList =
      (report.findings.map fun f ↦ (cellsOf f).map String.toList).map writeRow := by
    rw [List.map_map, List.map_map]
    exact List.map_congr_left fun f _ ↦ toList_tableRow f
  have hlines : toMarkdown report = join "\n"
      ((headerLines report ++ proofLines report ++ adviceLines report ++ ["## Findings"]) ++
        ("" :: columnLine :: delimiterLine :: (report.findings.map tableRow ++
          "" :: belowTable report))) := by
    rw [toMarkdown, if_neg h]
    congr 1
    simp only [columnLine, delimiterLine, belowTable, List.append_assoc, List.cons_append,
      List.nil_append]
  have habove : (headerLines report ++ proofLines report ++ adviceLines report ++
      ["## Findings"]).map String.toList ≠ [] := by simp
  have hbelow : (belowTable report).map String.toList ≠ [] := by simp [belowTable]
  have htable : ("" :: columnLine :: delimiterLine :: (report.findings.map tableRow ++
      "" :: belowTable report)).map String.toList =
        [] :: columnLine.toList :: delimiterLine.toList ::
          ((report.findings.map fun f ↦ (cellsOf f).map String.toList).map writeRow ++
            [] :: (belowTable report).map String.toList) := by
    rw [← hrows]
    simp only [List.map_cons, List.map_append, String.toList_empty]
  rw [hlines, toList_joinLines, List.map_append, htable,
    intercalate_append habove (List.cons_ne_nil _ _), intercalate_table hbelow, aboveTable,
    toList_joinLines, toList_joinLines]

theorem tableRows_eq {report : ScanReport} (h : report.findings ≠ []) : tableRows report =
    readTable (writeTable columnLine.toList delimiterLine.toList
      (report.findings.map fun f ↦ (cellsOf f).map String.toList)
      (join "\n" (belowTable report)).toList) := by
  rw [tableRows, if_neg h, toList_toMarkdown h, List.drop_length_add_append]
  rfl

/-! ## What fits in a cell -/

theorem neutral_of_isDigit {c : Char} (h : c.isDigit = true) : Neutral c := by
  refine ⟨⟨?_, ?_⟩, ?_, ?_⟩ <;> rintro rfl <;> exact absurd h (by decide)

theorem neutral_of_mem_repr {c : Char} {n : ℕ} (h : c ∈ (Nat.repr n).toList) : Neutral c := by
  rw [Nat.repr, String.toList_ofList] at h
  exact neutral_of_isDigit (Nat.isDigit_of_mem_toDigits (by decide) (by decide) h)

theorem fits_wholeScore (score : ℚ) : Fits (wholeScore score).toList := by
  apply fits_of_neutral
  intro c hc
  rw [wholeScore] at hc
  cases hscore : roundHalfEven score with
  | ofNat n =>
      rw [hscore] at hc
      exact neutral_of_mem_repr hc
  | negSucc n =>
      rw [hscore] at hc
      have hc : c ∈ ("-" ++ Nat.repr (n + 1)).toList := hc
      have hsign : "-".toList = ['-'] := rfl
      rw [String.toList_append, hsign] at hc
      rcases List.mem_append.mp hc with hc | hc
      · rw [List.mem_singleton.mp hc]
        decide
      · exact neutral_of_mem_repr hc

theorem fits_severity (sev : Severity) : Fits sev.value.toList := by
  cases sev <;> exact ⟨by decide, rfl⟩

theorem fits_confidence (confidence : Confidence) : Fits confidence.value.toList := by
  cases confidence <;> exact ⟨by decide, rfl⟩

/-- The texts that come from the engines have neither line ends nor unescaped pipes. -/
def TableSafe (f : UnifiedFinding) : Prop :=
  Fits f.category.toList ∧ Fits (orElse f.method "ANY").toList ∧ Fits f.endpoint.toList ∧
    ∀ engine ∈ f.engines, Fits engine.toList

theorem fits_endpoint {method endpoint : String} :
    Fits ("`" ++ method ++ " " ++ endpoint ++ "`").toList ↔
      Fits method.toList ∧ Fits endpoint.toList := by
  have htext : ("`" ++ method ++ " " ++ endpoint ++ "`").toList =
      '`' :: ((method.toList ++ ' ' :: endpoint.toList) ++ ['`']) := by simp
  rw [htext, fits_cons (by decide), fits_append_cons (by decide), fits_append_cons (by decide),
    and_iff_left fits_nil]

theorem fits_engines {engines : List String} :
    Fits (join ", " engines).toList ↔ ∀ engine ∈ engines, Fits engine.toList := by
  have hsep : ", ".toList = [',', ' '] := rfl
  rw [join, String.toList_ofList, hsep, fits_intercalate (by decide) (by decide),
    List.forall_mem_map]

theorem forall_fits_cellsOf_iff {f : UnifiedFinding} :
    (∀ t ∈ (cellsOf f).map String.toList, Fits t) ↔ TableSafe f := by
  rw [List.forall_mem_map, cellsOf]
  simp only [List.forall_mem_cons, fits_wholeScore, fits_severity, fits_confidence, fits_endpoint,
    fits_engines, TableSafe, List.not_mem_nil, IsEmpty.forall_iff, implies_true, true_and, and_true,
    and_assoc]

theorem decodable_iff_fits {report : ScanReport} (h : report.findings ≠ []) :
    Decodable report ↔ ∀ f ∈ report.findings, ∀ t ∈ (cellsOf f).map String.toList, Fits t := by
  rw [Decodable, tableRows_eq h, readTable_writeTable_iff (by decide) (by decide),
    List.forall_mem_map]

/-- The table can be decoded exactly when every text fits in its cell. -/
theorem decodable_iff (report : ScanReport) :
    Decodable report ↔ ∀ f ∈ report.findings, TableSafe f := by
  by_cases h : report.findings = []
  · simp [Decodable, tableRows, h]
  · rw [decodable_iff_fits h]
    exact forall₂_congr fun f _ ↦ forall_fits_cellsOf_iff

/-- A finding on a path with a pipe. -/
def pipedFinding : UnifiedFinding := { demoFinding with endpoint := "/a|b" }

theorem not_decodable_pipedFinding :
    ¬ Decodable { demoScanReport with findings := [pipedFinding] } := by
  intro h
  have hfits := (decodable_iff_fits (List.cons_ne_nil _ _)).mp h pipedFinding List.mem_cons_self
    "`GET /a|b`".toList (by simp [cellsOf, pipedFinding, demoFinding, orElse])
  have hpipes : pipes "`GET /a|b`".toList = 1 := by decide
  exact absurd (hpipes.symm.trans hfits.2) (by decide)

end Vantage.Findings
