import Vantage.Findings.JsonReport
import Vantage.Scan.Advice
import Vantage.Scan.Coverage

/-!
# The confirmed-only report of a run

The findings of a run have identifiers of their own, its bundles are theirs,
and its assessment speaks of no others.
-/

namespace Vantage.Scan

open Text Scope Engines Findings Persistence Ai

variable {σ : Type} {o : Orchestrator σ} {scan : Scan} {target : Target} {p p' : Platform σ}
  {report : ScanReport} {findings : List UnifiedFinding}

/-! ## Identifiers through the stages -/

/-- Merging with the findings of an earlier scan changes dates only. -/
theorem map_mergeAcrossScans {α : Type} {field : UnifiedFinding → α}
    (hfield : ∀ f first last, field { f with firstSeen := first, lastSeen := last } = field f)
    {previous current : List UnifiedFinding} {w w' : σ}
    (h : o.mergeAcrossScans previous current w = (.ok findings, w')) :
    findings.map field = current.map field := by
  unfold Orchestrator.mergeAcrossScans at h
  induction current generalizing findings w w' with
  | nil =>
      obtain ⟨rfl, -⟩ := Effect.eq_of_pure h
      rfl
  | cons f current ih =>
      obtain ⟨first, w₁, hfirst, h⟩ := Effect.exists_of_bind_ok h
      obtain ⟨rest, w₂, hrest, h⟩ := Effect.exists_of_bind_ok h
      obtain ⟨rfl, -⟩ := Effect.eq_of_pure h
      have hone : first.map field = [field f] := by
        cases hold : previous.reverse.find? (·.fingerprint = f.fingerprint) with
        | none =>
            simp only [hold] at hfirst
            obtain ⟨rfl, -⟩ := Effect.eq_of_pure hfirst
            rfl
        | some old =>
            simp only [hold] at hfirst
            obtain ⟨now, w₃, -, hfirst⟩ := Effect.exists_of_bind_ok hfirst
            obtain ⟨rfl, -⟩ := Effect.eq_of_pure hfirst
            rw [List.map_singleton, hfield]
      rw [List.map_append, hone, ih hrest, List.map_cons, List.singleton_append]

theorem map_mergeHistory {α : Type} {field : UnifiedFinding → α}
    (hfield : ∀ f first last, field { f with firstSeen := first, lastSeen := last } = field f)
    {current : List UnifiedFinding} (h : o.mergeHistory scan target current p = (.ok findings, p')) :
    findings.map field = current.map field := by
  obtain ⟨p₁, p₂, hget, h⟩ := Effect.exists_of_bind_ok h
  obtain ⟨rfl, rfl⟩ : p = p₁ ∧ p = p₂ := by
    rw [Effect.get_apply, Prod.mk.injEq, Except.ok.injEq] at hget
    exact hget
  cases hprevious : (p.db.listScans scan.tenantId (some .completed)).filter
      (fun s ↦ s.targetId = target.id ∧ s.id ≠ scan.id) with
  | nil =>
      simp only [hprevious] at h
      obtain ⟨rfl, -⟩ := Effect.eq_of_pure h
      rfl
  | cons last rest =>
      simp only [hprevious] at h
      exact map_mergeAcrossScans hfield (exists_of_outside h).1

/-- The findings that are reported are told apart by their identifiers. -/
theorem nodup_correlationStage (hids : ∀ w, Function.Injective (o.env.newIds w).1)
    {observations : List Observation} {scan' : Scan}
    (h : o.correlationStage scan target observations p = (.ok (scan', findings), p')) :
    (ids findings).Nodup := by
  obtain ⟨observations', p₁, -, h⟩ := Effect.exists_of_bind_ok h
  obtain ⟨correlated, p₂, hcorrelate, h⟩ := Effect.exists_of_bind_ok h
  obtain ⟨merged, p₃, hmerge, h⟩ := Effect.exists_of_bind_ok h
  obtain ⟨scan₁, p₄, -, h⟩ := Effect.exists_of_bind_ok h
  obtain ⟨scan₂, p₅, -, h⟩ := Effect.exists_of_bind_ok h
  obtain ⟨hpair, -⟩ := Effect.eq_of_pure h
  obtain ⟨-, rfl⟩ := Prod.mk.inj hpair
  have hscored : ids (merged.map fun f ↦ { f with riskScore := o.risk f }) = ids merged := by
    unfold ids
    rw [List.map_map]
    rfl
  have hmerged : ids merged = ids correlated := map_mergeHistory (fun _ _ _ ↦ rfl) hmerge
  obtain ⟨newId, w, hnew, hcorrelate⟩ := Effect.exists_of_bind_ok (exists_of_outside hcorrelate).1
  obtain ⟨rfl, -⟩ := Effect.eq_of_pure hcorrelate
  rw [hscored, hmerged]
  have hnewId : (o.env.newIds p₁.world).1 = newId := Except.ok.inj (congrArg Prod.fst hnew)
  exact nodup_ids _ _ (by rw [← hnewId]; exact hids _)

theorem prioritizedOrder_perm (findings : List UnifiedFinding) (ai : AiAssessment) :
    (prioritizedOrder findings ai).Perm findings := by
  unfold prioritizedOrder
  split_ifs
  · exact List.perm_insertionSort _ _
  · exact List.perm_insertionSort _ _

/-- The report reorders the findings when the assessment is enabled. -/
theorem reportStage_ok {findings' : List UnifiedFinding} {ai : AiAssessment} {scan' : Scan}
    (h : o.reportStage scan findings p = (.ok (scan', findings', ai), p')) :
    (∃ w w', assess o.env.loads o.analyst findings w = (.ok ai, w')) ∧
      findings'.Perm findings := by
  obtain ⟨-, p₁, -, h⟩ := Effect.exists_of_bind_ok h
  obtain ⟨ai', p₂, hassess, h⟩ := Effect.exists_of_bind_ok h
  obtain ⟨scan₁, p₃, -, h⟩ := Effect.exists_of_bind_ok h
  obtain ⟨hresult, -⟩ := Effect.eq_of_pure h
  obtain ⟨-, hfindings, rfl⟩ : scan₁ = scan' ∧ _ = findings' ∧ ai' = ai := by
    simpa only [Prod.mk.injEq] using hresult
  refine ⟨⟨_, _, (exists_of_outside hassess).1⟩, ?_⟩
  rw [← hfindings]
  split_ifs
  · exact prioritizedOrder_perm _ _
  · exact List.Perm.refl _

/-! ## The report of a run -/

/-- The bundles of a report with proofs are those of its findings, and an assessment
of it speaks of them. -/
theorem proven_of_run (hids : ∀ w, Function.Injective (o.env.newIds w).1)
    (hrun : o.run scan target p = (.ok report, p')) (hproofs : report.proofs ≠ none) :
    (∃ engine signed, Proven o.env.digests engine signed report) ∧
      ∀ ai, report.advice = some ai → ∀ id ∈ mentionedIds ai,
        id ∈ report.findings.map UnifiedFinding.id := by
  rw [run_eq] at hrun
  split_ifs at hrun with hauthorized
  · obtain ⟨⟨scan₁, scope, plan⟩, p₁, -, h⟩ := Effect.exists_of_bind_ok hrun
    obtain ⟨⟨scan₂, progress⟩, p₂, -, h⟩ := Effect.exists_of_bind_ok h
    obtain ⟨⟨scan₃, findings⟩, p₃, hcorrelation, h⟩ := Effect.exists_of_bind_ok h
    obtain ⟨⟨scan₄, findings', ai⟩, p₄, hreport, h⟩ := Effect.exists_of_bind_ok h
    obtain ⟨rfl, -⟩ := Effect.eq_of_pure h
    obtain ⟨⟨w, w', hassess⟩, hperm⟩ := reportStage_ok hreport
    have hadvice := advice_of_ok hassess
    have hmem : ∀ id, id ∈ ids findings → id ∈ ids findings' :=
      fun id hid ↦ (hperm.map UnifiedFinding.id).mem_iff.mpr hid
    refine ⟨⟨_, _, rfl, ?_⟩, ?_⟩
    · exact (hperm.map UnifiedFinding.id).nodup_iff.mpr (nodup_correlationStage hids hcorrelation)
    · intro ai' hai id hid
      obtain rfl : ai = ai' := Option.some.inj (Option.filter_eq_some_iff.mp hai).1
      rcases List.mem_append.mp hid with hid | hid
      · obtain ⟨entry, hentry, rfl⟩ := List.mem_map.mp hid
        exact hmem _ (hadvice.annotations_known entry hentry)
      · obtain ⟨group, hgroup, hid⟩ := List.mem_flatMap.mp hid
        exact hmem _ (hadvice.groups_known group hgroup id hid)
  · obtain ⟨scan₁, p₁, -, h⟩ := Effect.exists_of_bind_ok hrun
    obtain ⟨scan₂, p₂, -, h⟩ := Effect.exists_of_bind_ok h
    obtain ⟨scan₃, p₃, -, h⟩ := Effect.exists_of_bind_ok h
    obtain ⟨rfl, -⟩ := Effect.eq_of_pure h
    exact absurd rfl hproofs

/-- The confirmed-only report is closed exactly when every finding that an enabled
assessment annotates or groups has a confirmed or corroborated verdict. -/
theorem closed_iff_mentioned_confirmed (dumps : Dumps)
    (hids : ∀ w, Function.Injective (o.env.newIds w).1)
    (hrun : o.run scan target p = (.ok report, p')) (hproofs : report.proofs ≠ none) :
    Closed dumps report ↔ ∀ ai, report.advice = some ai → ∀ f ∈ report.findings,
      f.id ∈ mentionedIds ai → verdictFor f ∈ confirmedVerdicts := by
  obtain ⟨⟨engine, signed, hproven⟩, hknown⟩ := proven_of_run hids hrun hproofs
  exact hproven.closed_iff_confirmed hknown

/-! ## An annotated finding -/

/-- A model explains the first finding. -/
def explainingReply : Json :=
  .obj [("findings", .arr [.obj [("id", .str "f"), ("explanation", .str "reflected input")]])]

/-- A run with one engine, whose report has the given confidence, and with that model. -/
def explained (confidence : Confidence) : Orchestrator Unit :=
  { demoOrchestrator explainingReply (reporting .healthy [demoReport "a" "xss" confidence]) with
    env := { demoEnvironment explainingReply with newIds := fun s ↦ (fun n ↦ demoIds (n + 1), s) }
    analyst := demoProvider }

def demoDumps : Dumps := ⟨fun _ ↦ .null, fun _ ↦ .null⟩

theorem injective_explained (confidence : Confidence) (w : Unit) :
    Function.Injective ((explained confidence).env.newIds w).1 :=
  demoIds_injective.comp (add_left_injective 1)

theorem explained_returns (confidence : Confidence) : ∃ report p',
    (explained confidence).run demoScan demoTarget demoPlatform = (.ok report, p') ∧
      report.proofs ≠ none ∧ report.advice.map mentionedIds = some ["f"] ∧
        report.findings.map (fun f ↦ (f.id, verdictFor f)) = [("f", verdictFor
          (demoEngine.merge demoSha256 "f" ⟨"", demoReport "a" "xss" confidence, []⟩))] := by
  have hparts : ((explained confidence).run demoScan demoTarget demoPlatform).1.map (fun report ↦
      (report.proofs.isSome, report.advice.map mentionedIds,
        report.findings.map fun f ↦ (f.id, verdictFor f))) =
      .ok (true, some ["f"], [("f", verdictFor
        (demoEngine.merge demoSha256 "f" ⟨"", demoReport "a" "xss" confidence, []⟩))]) := by
    cases confidence <;> decide +kernel
  rcases hrun : (explained confidence).run demoScan demoTarget demoPlatform with ⟨result, p'⟩
  rw [hrun] at hparts
  cases result with
  | error e => exact absurd hparts (by simp [Except.map])
  | ok report =>
      obtain ⟨hproofs, hadvice, hfindings⟩ := by
        simpa only [Except.map, Except.ok.injEq, Prod.mk.injEq] using hparts
      exact ⟨report, p', rfl, Option.isSome_iff_ne_none.mp hproofs, hadvice, hfindings⟩

theorem closed_iff_explained : ∃ report p',
    (explained .confirmed).run demoScan demoTarget demoPlatform = (.ok report, p') ∧
      (Closed demoDumps report ↔ ∀ ai, report.advice = some ai → ∀ f ∈ report.findings,
        f.id ∈ mentionedIds ai → verdictFor f ∈ confirmedVerdicts) := by
  obtain ⟨report, p', hrun, hproofs, -⟩ := explained_returns .confirmed
  exact ⟨report, p', hrun,
    closed_iff_mentioned_confirmed demoDumps (injective_explained .confirmed) hrun hproofs⟩

/-- The explanation of an unconfirmed finding is in the confirmed-only report. -/
theorem not_closed_explained : ∃ report p',
    (explained .tentative).run demoScan demoTarget demoPlatform = (.ok report, p') ∧
      ¬ Closed demoDumps report := by
  obtain ⟨report, p', hrun, hproofs, hadvice, hfindings⟩ := explained_returns .tentative
  refine ⟨report, p', hrun, fun hclosed ↦ ?_⟩
  obtain ⟨⟨engine, signed, hproven⟩, hknown⟩ :=
    proven_of_run (injective_explained .tentative) hrun hproofs
  obtain ⟨ai, hai, hmentioned⟩ := Option.map_eq_some_iff.mp hadvice
  obtain ⟨f, hf, hpair⟩ : ∃ f ∈ report.findings, (f.id, verdictFor f) = ("f", "reported") := by
    have hverdict : verdictFor (demoEngine.merge demoSha256 "f"
        ⟨"", demoReport "a" "xss" .tentative, []⟩) = "reported" := by decide +kernel
    exact List.mem_map.mp (by rw [hfindings, hverdict]; exact List.mem_singleton_self _)
  obtain ⟨hid, hverdict⟩ := Prod.mk.inj hpair
  have hconfirmed := (hproven.closed_iff_confirmed hknown).mp hclosed ai hai f hf
    (by rw [hid, hmentioned]; exact List.mem_singleton_self _)
  rw [hverdict] at hconfirmed
  exact absurd hconfirmed (by decide)

end Vantage.Scan
