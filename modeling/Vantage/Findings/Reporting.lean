import Vantage.Ai.Analyst
import Vantage.Domain.Scan
import Vantage.Findings.OrderFree
import Vantage.Findings.Proof

/-!
# The confirmed-only view

A finding is shown when the proof that carries its identifier has a confirmed
or corroborated verdict.
-/

namespace Vantage.Findings

open Text
open Grouping hiding sortedSet sortedSet_congr

structure ProofReport where
  proofs : List ProofOfVulnerability
  signed : Bool

def confirmedVerdicts : List String := ["confirmed", "corroborated"]

def ProofReport.confirmed (r : ProofReport) : List ProofOfVulnerability :=
  r.proofs.filter fun p ↦ confirmedVerdicts.contains p.verdict

/-- `build_proofs`, over an engine with the given key. -/
def buildProofs (d : Digests) (engine : ProofEngine) (findings : List UnifiedFinding) :
    ProofReport :=
  let proofs := findings.map (engine.build d)
  ⟨proofs, proofs.any ProofOfVulnerability.signed⟩

/-- The outcome of a scan. -/
structure ScanReport where
  scan : Vantage.Scan
  findings : List UnifiedFinding
  observations : ℕ
  enginesRun : List String
  enginesFailed : List String
  skippedCapabilities : List String
  coverageEntries : Option ℕ := none
  ai : Option Ai.AiAssessment := none
  proofs : Option ProofReport := none

/-- `filter_confirmed`. -/
def filterConfirmed (report : ScanReport) : ScanReport :=
  match report.proofs with
  | none => report
  | some proofs =>
      let confirmedIds := proofs.confirmed.map ProofOfVulnerability.findingId
      { report with
        findings := report.findings.filter fun f ↦ confirmedIds.contains f.id
        proofs := some ⟨proofs.proofs.filter fun p ↦ confirmedIds.contains p.findingId,
          proofs.signed⟩ }

/-! ## Which findings are kept -/

variable {d : Digests} {engine : ProofEngine} {findings : List UnifiedFinding} {f : UnifiedFinding}
  {report : ScanReport}

@[simp] theorem build_findingId : (engine.build d f).findingId = f.id := by
  unfold ProofEngine.build
  cases engine.secret <;> rfl

@[simp] theorem build_verdict : (engine.build d f).verdict = verdictFor f := by
  unfold ProofEngine.build
  cases engine.secret <;> rfl

/-- When no two findings share an identifier, a finding is kept by its own verdict. -/
theorem mem_filterConfirmed_iff (hproofs : report.proofs = some (buildProofs d engine report.findings))
    (hids : (report.findings.map UnifiedFinding.id).Nodup) :
    f ∈ (filterConfirmed report).findings ↔
      f ∈ report.findings ∧ verdictFor f ∈ confirmedVerdicts := by
  unfold filterConfirmed
  rw [hproofs]
  simp only [List.mem_filter, List.contains_iff_mem, List.mem_map, ProofReport.confirmed,
    buildProofs]
  constructor
  · rintro ⟨hf, p, ⟨⟨f', hf', rfl⟩, hverdict⟩, hid⟩
    rw [build_findingId] at hid
    obtain rfl := List.inj_on_of_nodup_map hids hf' hf hid
    rw [build_verdict] at hverdict
    exact ⟨hf, hverdict⟩
  · rintro ⟨hf, hverdict⟩
    exact ⟨hf, engine.build d f, ⟨⟨f, hf, rfl⟩, by rwa [build_verdict]⟩, build_findingId⟩

theorem verdictFor_mem_iff : verdictFor f ∈ confirmedVerdicts ↔
    f.confidence = .confirmed ∨
      (f.confidence ≠ .falsePositive ∧ (2 ≤ f.engines.length ∨ f.confidence = .firm)) := by
  unfold verdictFor confirmedVerdicts
  cases hconf : f.confidence <;> simp [apply_ite]

/-! ## Corroboration -/

variable {sha256 : List UInt8 → String} {e : CorrelationEngine} {newId : ℕ → String}
  {observations : List Observation} {g : Group String Observation} {id : String}

/-- A finding has a confirmed or corroborated verdict when something in its
group is not refuted, and something is confirmed or two engines occur in it. -/
theorem verdictFor_merge_iff : verdictFor (e.merge sha256 id g) ∈ confirmedVerdicts ↔
    (∃ o ∈ g.members, o.confidence ≠ .falsePositive) ∧
      ((∃ o ∈ g.members, o.confidence = .confirmed) ∨
        ∃ o ∈ g.members, ∃ o' ∈ g.members, o.engineId ≠ o'.engineId) := by
  rw [verdictFor_mem_iff, ← two_le_enginesOf_iff, ← confidenceOf_ne_falsePositive_iff,
    ← confidenceOf_eq_confirmed_iff]
  change confidenceOf g = .confirmed ∨ (confidenceOf g ≠ .falsePositive ∧
    (2 ≤ (enginesOf g).length ∨ confidenceOf g = .firm)) ↔ _
  constructor
  · rintro (hconf | ⟨hlive, hlen | hconf⟩)
    · exact ⟨by simp [hconf], Or.inl hconf⟩
    · exact ⟨hlive, Or.inr hlen⟩
    · exact ⟨hlive, Or.inr (two_le_engines_of_firm hconf)⟩
  · rintro ⟨hlive, hconf | hlen⟩
    · exact Or.inl hconf
    · exact Or.inr ⟨hlive, Or.inl hlen⟩

section View

variable (sha256 e newId d engine report observations)

/-- Correlate, build the proofs and keep what they confirm. -/
def confirmedView : List UnifiedFinding :=
  (filterConfirmed { report with
    findings := e.correlate sha256 newId observations
    proofs := some (buildProofs d engine (e.correlate sha256 newId observations)) }).findings

variable {report d engine e newId} in
theorem nodup_ids (hids : Function.Injective newId) :
    ((e.correlate sha256 newId observations).map UnifiedFinding.id).Nodup := by
  have hperm := (List.perm_insertionSort (fun f g ↦ findingRank g ≤ findingRank f)
    (e.mergeAll sha256 newId observations)).map UnifiedFinding.id
  apply hperm.nodup_iff.mpr
  have hlength : ((e.mergeAll sha256 newId observations).map UnifiedFinding.id).length =
      (groupBy (observationKey sha256) observations).length := by
    rw [List.length_map, CorrelationEngine.mergeAll, List.length_mapIdx]
  have hmap : (e.mergeAll sha256 newId observations).map UnifiedFinding.id =
      (List.range (groupBy (observationKey sha256) observations).length).map newId := by
    apply List.ext_getElem
    · rw [hlength, List.length_map, List.length_range]
    · intro i hi hi'
      rw [List.getElem_map, List.getElem_map, List.getElem_range]
      simp only [CorrelationEngine.mergeAll, List.getElem_mapIdx]
      rfl
  rw [hmap]
  exact List.nodup_range.map hids

variable {report d engine} in
theorem mem_confirmedView_iff (hids : Function.Injective newId) :
    f ∈ confirmedView d engine report sha256 e newId observations ↔
      f ∈ e.correlate sha256 newId observations ∧ verdictFor f ∈ confirmedVerdicts :=
  mem_filterConfirmed_iff rfl (nodup_ids sha256 observations hids)

/-- The observations that a finding was merged from. -/
def observationsOf (f : UnifiedFinding) : List Observation :=
  observations.filter fun o ↦ observationKey sha256 o = f.fingerprint

/-- One observation of the finding is confirmed or firm, or two engines have
one each that is not refuted. -/
def Corroborated (f : UnifiedFinding) : Prop :=
  (∃ o ∈ observationsOf sha256 observations f, o.confidence = .confirmed ∨ o.confidence = .firm) ∨
    ∃ o ∈ observationsOf sha256 observations f, ∃ o' ∈ observationsOf sha256 observations f,
      o.engineId ≠ o'.engineId ∧ o.confidence ≠ .falsePositive ∧ o'.confidence ≠ .falsePositive

/-- A refuted observation stands beside a tentative one of another engine, and
nothing else speaks for the issue. -/
def Hollow : Prop :=
  ∃ o ∈ observations, ∃ o' ∈ observations,
    observationKey sha256 o' = observationKey sha256 o ∧
      o.confidence = .tentative ∧ o'.confidence = .falsePositive ∧ o'.engineId ≠ o.engineId ∧
        ∀ p ∈ observations, observationKey sha256 p = observationKey sha256 o →
          p.confidence = .falsePositive ∨ p.confidence = .tentative ∧ p.engineId = o.engineId

end View

variable {report : ScanReport}

theorem mem_observationsOf_merge (hg : g ∈ groupBy (observationKey sha256) observations)
    {o : Observation} :
    o ∈ observationsOf sha256 observations (e.merge sha256 id g) ↔ o ∈ g.members := by
  rw [(partitions_groupBy _ _).mem_iff hg, observationsOf, List.mem_filter, decide_eq_true_iff]
  rfl

/-- A group that is kept without corroboration has live observations of one
engine only, so the second engine of the verdict is a refuted one. -/
theorem hollow_of_kept (hg : g ∈ groupBy (observationKey sha256) observations)
    (hkept : verdictFor (e.merge sha256 id g) ∈ confirmedVerdicts)
    (hcorroborated : ¬ Corroborated sha256 observations (e.merge sha256 id g)) :
    Hollow sha256 observations := by
  have hpart := partitions_groupBy (observationKey sha256) observations
  simp only [Corroborated, mem_observationsOf_merge hg, not_or] at hcorroborated
  obtain ⟨hweak, halone⟩ := hcorroborated
  obtain ⟨⟨o, ho, hlive⟩, hverdict⟩ := verdictFor_merge_iff.mp hkept
  have htentative : ∀ p ∈ g.members, p.confidence ≠ .falsePositive → p.confidence = .tentative := by
    intro p hp hlive
    cases hconf : p.confidence with
    | tentative => rfl
    | falsePositive => exact absurd hconf hlive
    | firm => exact absurd ⟨p, hp, Or.inr hconf⟩ hweak
    | confirmed => exact absurd ⟨p, hp, Or.inl hconf⟩ hweak
  have hsame : ∀ p ∈ g.members, p.confidence ≠ .falsePositive → p.engineId = o.engineId := by
    intro p hp hplive
    by_contra hne
    exact halone ⟨p, hp, o, ho, hne, hplive, hlive⟩
  have hother : ∃ o' ∈ g.members, o'.engineId ≠ o.engineId := by
    rcases hverdict with ⟨p, hp, hconf⟩ | ⟨p, hp, p', hp', hne⟩
    · exact absurd ⟨p, hp, Or.inl hconf⟩ hweak
    · by_cases hengine : p.engineId = o.engineId
      · exact ⟨p', hp', fun h ↦ hne (hengine.trans h.symm)⟩
      · exact ⟨p, hp, hengine⟩
  obtain ⟨o', ho', hengine⟩ := hother
  have hkey := (hpart.mem_iff hg).mp ho
  have hkey' := (hpart.mem_iff hg).mp ho'
  refine ⟨o, hkey.1, o', hkey'.1, hkey'.2.trans hkey.2.symm, htentative o ho hlive, ?_, hengine, ?_⟩
  · by_contra hlive'
    exact hengine (hsame o' ho' hlive')
  · intro p hp hpkey
    have hmem : p ∈ g.members := (hpart.mem_iff hg).mpr ⟨hp, hpkey.trans hkey.2⟩
    by_cases hplive : p.confidence = .falsePositive
    · exact Or.inl hplive
    · exact Or.inr ⟨htentative p hmem hplive, hsame p hmem hplive⟩

/-- The engine of the refuted observation is counted by the verdict. -/
theorem exists_kept_of_hollow (hids : Function.Injective newId)
    (hhollow : Hollow sha256 observations) :
    ∃ f ∈ confirmedView d engine report sha256 e newId observations,
      ¬ Corroborated sha256 observations f := by
  obtain ⟨o, ho, o', ho', hkey, htentative, hrefuted, hengine, hrest⟩ := hhollow
  have hpart := partitions_groupBy (observationKey sha256) observations
  have hkeys : observationKey sha256 o ∈
      (e.correlate sha256 newId observations).map UnifiedFinding.fingerprint :=
    mem_fingerprints.mpr (List.mem_map_of_mem ho)
  obtain ⟨f, hf, hfp⟩ := List.mem_map.mp hkeys
  obtain ⟨g, hg, id, rfl⟩ := exists_group hf
  have hgkey : g.key = observationKey sha256 o := hfp
  have hmem : ∀ p, p ∈ g.members ↔ p ∈ observations ∧ observationKey sha256 p = g.key :=
    fun p ↦ hpart.mem_iff hg
  have hgo : o ∈ g.members := (hmem o).mpr ⟨ho, hgkey.symm⟩
  have hgo' : o' ∈ g.members := (hmem o').mpr ⟨ho', hkey.trans hgkey.symm⟩
  have hcases : ∀ p ∈ g.members,
      p.confidence = .falsePositive ∨ p.confidence = .tentative ∧ p.engineId = o.engineId :=
    fun p hp ↦ hrest p ((hmem p).mp hp).1 (((hmem p).mp hp).2.trans hgkey)
  refine ⟨_, (mem_confirmedView_iff sha256 e newId observations hids).mpr ⟨hf, ?_⟩, ?_⟩
  · apply verdictFor_merge_iff.mpr
    exact ⟨⟨o, hgo, by simp [htentative]⟩, Or.inr ⟨o', hgo', o, hgo, hengine⟩⟩
  · simp only [Corroborated, mem_observationsOf_merge hg]
    rintro (⟨p, hp, hconf⟩ | ⟨p, hp, p', hp', hne, hlive, hlive'⟩)
    · rcases hcases p hp with hp | ⟨hp, -⟩ <;> simp [hp] at hconf
    · rcases hcases p hp with hp | ⟨-, hp⟩
      · exact hlive hp
      · rcases hcases p' hp' with hp' | ⟨-, hp'⟩
        · exact hlive' hp'
        · exact hne (hp.trans hp'.symm)

/-- Everything that the view keeps is corroborated exactly when no issue rests
on a refuted second engine. -/
theorem confirmedView_corroborated_iff (hids : Function.Injective newId) :
    (∀ f ∈ confirmedView d engine report sha256 e newId observations,
      Corroborated sha256 observations f) ↔ ¬ Hollow sha256 observations := by
  constructor
  · intro hall hhollow
    obtain ⟨f, hf, hnot⟩ : ∃ f ∈ confirmedView d engine report sha256 e newId observations,
        ¬ Corroborated sha256 observations f := exists_kept_of_hollow hids hhollow
    exact hnot (hall f hf)
  · intro hhollow f hf
    obtain ⟨hf, hkept⟩ := (mem_confirmedView_iff sha256 e newId observations hids).mp hf
    obtain ⟨g, hg, id, rfl⟩ := exists_group hf
    by_contra hnot
    exact hhollow (hollow_of_kept hg hkept hnot)

/-! ## A refuted second opinion -/

def demoIds (n : ℕ) : String := String.ofList (List.replicate n 'f')

theorem demoIds_injective : Function.Injective demoIds := by
  intro m n h
  simpa using congrArg List.length (String.ofList_injective h)

def demoScanReport : ScanReport where
  scan := { id := "s", tenantId := "t", targetId := "g", createdBy := "dev", createdAt := 0 }
  findings := []
  observations := 2
  enginesRun := ["nuclei", "zap"]
  enginesFailed := []
  skippedCapabilities := []

theorem nuclei_ok : isIdentifier "nuclei" = true := by decide

/-- One engine reports the issue, and validation refuted the report of the other. -/
def secondOpinion (confidence : Confidence) : List Observation :=
  [demoReport "a" "xss" .tentative,
    { demoReport "b" "xss" confidence with engineId := "nuclei", engineId_ok := nuclei_ok }]

theorem hollow_secondOpinion : Hollow demoSha256 (secondOpinion .falsePositive) := by
  refine ⟨_, List.mem_cons_self, _, List.mem_cons_of_mem _ List.mem_cons_self, rfl, rfl, rfl,
    by decide, ?_⟩
  intro p hp _
  simp only [secondOpinion, List.mem_cons, List.not_mem_nil, or_false] at hp
  rcases hp with rfl | rfl
  · exact Or.inr ⟨rfl, rfl⟩
  · exact Or.inl rfl

theorem confirmedView_corroborated_secondOpinion :
    (∀ f ∈ confirmedView demoDigests ⟨none⟩ demoScanReport demoSha256 demoEngine demoIds
        (secondOpinion .tentative), Corroborated demoSha256 (secondOpinion .tentative) f) ↔
      ¬ Hollow demoSha256 (secondOpinion .tentative) :=
  confirmedView_corroborated_iff demoIds_injective

theorem not_corroborated_secondOpinion :
    ¬ ∀ f ∈ confirmedView demoDigests ⟨none⟩ demoScanReport demoSha256 demoEngine demoIds
        (secondOpinion .falsePositive), Corroborated demoSha256 (secondOpinion .falsePositive) f := by
  intro hall
  obtain ⟨f, hf, hnot⟩ : ∃ f ∈ confirmedView demoDigests ⟨none⟩ demoScanReport demoSha256
      demoEngine demoIds (secondOpinion .falsePositive),
        ¬ Corroborated demoSha256 (secondOpinion .falsePositive) f :=
    exists_kept_of_hollow demoIds_injective hollow_secondOpinion
  exact hnot (hall f hf)

end Vantage.Findings
