import Vantage.Ai.Analyst
import Vantage.Findings.Proof
import Vantage.Lib.StableSort

/-!
# The order of presentation

Findings are to be shown by the rank of the analyst first, then by risk. The
sort writes a missing rank as the number 10000, so that the ranks from there on
and the rank 0, which reads as missing, get mixed up with it.
-/

namespace Vantage.Ai

variable {assessment : AiAssessment} {findings : List UnifiedFinding} {f g : UnifiedFinding}

/-- The rank that the analyst gave, if any. -/
def aiRank (assessment : AiAssessment) (finding : UnifiedFinding) : Option ℤ :=
  (assessment.annotations.find? (·.1 = finding.id)).bind fun entry ↦ entry.2.priorityRank

/-- Ranked findings first, by rank; then by risk. -/
def Precedes (assessment : AiAssessment) (f g : UnifiedFinding) : Prop :=
  match aiRank assessment f, aiRank assessment g with
  | some r, some s => r < s ∨ r = s ∧ g.riskScore ≤ f.riskScore
  | some _, none => True
  | none, some _ => False
  | none, none => g.riskScore ≤ f.riskScore

def tied (assessment : AiAssessment) (f g : UnifiedFinding) : Bool :=
  aiRank assessment g = aiRank assessment f ∧ g.riskScore = f.riskScore

/-- The findings in the order that is promised, with ties as they came. -/
structure Prioritized (assessment : AiAssessment) (findings out : List UnifiedFinding) : Prop where
  perm : out.Perm findings
  ordered : out.Pairwise (Precedes assessment)
  stable : ∀ f, out.filter (tied assessment f) = findings.filter (tied assessment f)

/-- The number for a missing rank stands on the wrong side of a pair, the first
of which comes first in the input. -/
def Displaced (assessment : AiAssessment) (f g : UnifiedFinding) : Prop :=
  match aiRank assessment f, aiRank assessment g with
  | some r, some s =>
      r = 0 ∧ (0 < s ∧ s < 10000 ∨ s = 10000 ∧ f.riskScore < g.riskScore) ∨
        s = 0 ∧ (0 < r ∧ r < 10000 ∨ r = 10000 ∧ g.riskScore ≤ f.riskScore)
  | some r, none => 10000 < r ∨ (r = 0 ∨ r = 10000) ∧ f.riskScore < g.riskScore
  | none, some s => 10000 < s ∨ (s = 0 ∨ s = 10000) ∧ g.riskScore ≤ f.riskScore
  | none, none => False

/-- The order of the sort. -/
def KeyLe (assessment : AiAssessment) (f g : UnifiedFinding) : Prop :=
  toLex (rankOf assessment f, -f.riskScore) ≤ toLex (rankOf assessment g, -g.riskScore)

theorem rankOf_eq (assessment : AiAssessment) (f : UnifiedFinding) : rankOf assessment f =
    match aiRank assessment f with
    | some rank => if rank = 0 then 10000 else rank
    | none => 10000 := rfl

theorem keyLe_iff : KeyLe assessment f g ↔ rankOf assessment f < rankOf assessment g ∨
    rankOf assessment f = rankOf assessment g ∧ g.riskScore ≤ f.riskScore := by
  rw [KeyLe, Prod.Lex.toLex_le_toLex, neg_le_neg_iff]

/-- The sort and the promise part on the displaced pairs only. -/
theorem keyLe_iff_precedes :
    (KeyLe assessment f g ↔ Precedes assessment f g) ↔ ¬ Displaced assessment f g := by
  rw [keyLe_iff, rankOf_eq, rankOf_eq]
  unfold Precedes Displaced
  cases aiRank assessment f with
  | none =>
      cases aiRank assessment g with
      | none => simp
      | some s =>
          rcases lt_or_ge f.riskScore g.riskScore with hrisk | hrisk
          · simp only [not_le.mpr hrisk, and_false, or_false, iff_false]
            split_ifs <;> omega
          · simp only [hrisk, and_true, iff_false]
            split_ifs <;> omega
  | some r =>
      cases aiRank assessment g with
      | none =>
          rcases lt_or_ge f.riskScore g.riskScore with hrisk | hrisk
          · simp only [not_le.mpr hrisk, hrisk, and_false, and_true, or_false, iff_true]
            split_ifs <;> omega
          · simp only [not_lt.mpr hrisk, hrisk, and_false, and_true, or_false, iff_true]
            split_ifs <;> omega
      | some s =>
          rcases lt_or_ge f.riskScore g.riskScore with hrisk | hrisk
          · simp only [not_le.mpr hrisk, hrisk, and_false, and_true, or_false]
            split_ifs <;> omega
          · simp only [not_lt.mpr hrisk, hrisk, and_false, and_true, or_false]
            split_ifs <;> omega

theorem precedes_total (assessment : AiAssessment) (f g : UnifiedFinding) :
    Precedes assessment f g ∨ Precedes assessment g f := by
  unfold Precedes
  have hrisk := le_total g.riskScore f.riskScore
  cases aiRank assessment f with
  | none =>
      cases aiRank assessment g with
      | none => exact hrisk
      | some s => exact Or.inr True.intro
  | some r =>
      cases aiRank assessment g with
      | none => exact Or.inl True.intro
      | some s =>
          rcases lt_trichotomy r s with hlt | rfl | hlt
          · exact Or.inl (Or.inl hlt)
          · exact hrisk.imp (fun h ↦ Or.inr ⟨rfl, h⟩) fun h ↦ Or.inr ⟨rfl, h⟩
          · exact Or.inr (Or.inl hlt)

theorem tied_iff : tied assessment f g = true ↔
    aiRank assessment g = aiRank assessment f ∧ g.riskScore = f.riskScore := by
  simp [tied]

/-- Findings that precede one another have the same rank and risk. -/
theorem tied_of_precedes (h : Precedes assessment f g) (h' : Precedes assessment g f) :
    tied assessment f g = true := by
  rw [tied_iff]
  unfold Precedes at h h'
  cases hf : aiRank assessment f with
  | none =>
      cases hg : aiRank assessment g with
      | none =>
          simp only [hf, hg] at h h'
          exact ⟨rfl, le_antisymm h h'⟩
      | some s => simp [hf, hg] at h
  | some r =>
      cases hg : aiRank assessment g with
      | none => simp [hf, hg] at h'
      | some s =>
          simp only [hf, hg] at h h'
          rcases h with hlt | ⟨rfl, hle⟩
          · rcases h' with hlt' | ⟨rfl, -⟩
            · exact absurd hlt' (lt_asymm hlt)
            · exact absurd hlt (lt_irrefl _)
          · rcases h' with hlt' | ⟨-, hle'⟩
            · exact absurd hlt' (lt_irrefl _)
            · exact ⟨rfl, le_antisymm hle hle'⟩

theorem keyLe_of_tied (h : tied assessment f g = true) : KeyLe assessment f g := by
  obtain ⟨hrank, hrisk⟩ := tied_iff.mp h
  rw [keyLe_iff, rankOf_eq, rankOf_eq, hrank]
  exact Or.inr ⟨rfl, hrisk.le⟩

theorem prioritizedOrder_eq (h : assessment.enabled = true) (findings : List UnifiedFinding) :
    prioritizedOrder findings assessment = findings.insertionSort fun f g ↦
      toLex (rankOf assessment f, -f.riskScore) ≤ toLex (rankOf assessment g, -g.riskScore) := by
  rw [prioritizedOrder, if_pos h]

/-- The order is the promised one just when no pair of the input is displaced. -/
theorem prioritized_iff : (assessment.enabled = true →
      Prioritized assessment findings (prioritizedOrder findings assessment)) ↔
    (assessment.enabled = true → findings.Pairwise fun f g ↦ ¬ Displaced assessment f g) := by
  refine imp_congr_right fun henabled ↦ ?_
  rw [prioritizedOrder_eq henabled]
  have htotal : Std.Total fun f g : UnifiedFinding ↦
      toLex (rankOf assessment f, -f.riskScore) ≤ toLex (rankOf assessment g, -g.riskScore) :=
    ⟨fun _ _ ↦ le_total _ _⟩
  have htrans : IsTrans UnifiedFinding fun f g ↦
      toLex (rankOf assessment f, -f.riskScore) ≤ toLex (rankOf assessment g, -g.riskScore) :=
    ⟨fun _ _ _ h h' ↦ h.trans h'⟩
  have hordered := StableSort.pairwise_insertionSort_iff
    (R := fun f g ↦ toLex (rankOf assessment f, -f.riskScore) ≤
      toLex (rankOf assessment g, -g.riskScore)) (l := findings)
    (precedes_total assessment) fun f g h h' ↦ keyLe_of_tied (tied_of_precedes h h')
  have hpairs : (findings.Pairwise fun f g ↦ ¬ Displaced assessment f g) ↔
      findings.Pairwise fun f g ↦ KeyLe assessment f g ↔ Precedes assessment f g := by
    simp only [keyLe_iff_precedes]
  rw [hpairs]
  constructor
  · exact fun h ↦ hordered.mp h.ordered
  · refine fun h ↦ ⟨List.perm_insertionSort _ _, hordered.mpr h, fun f ↦ ?_⟩
    apply StableSort.filter_insertionSort
    intro a b ha hb
    rw [tied_iff] at ha hb
    exact keyLe_of_tied (tied_iff.mpr ⟨hb.1.trans ha.1.symm, hb.2.trans ha.2.symm⟩)

/-! ## A finding of rank 0 -/

def firstFinding : UnifiedFinding := { Findings.demoFinding with id := "a", riskScore := 10 }

def secondFinding : UnifiedFinding := { Findings.demoFinding with id := "b", riskScore := 90 }

/-- The model puts the first finding on rank 0 and does not rank the second. -/
def rankZero : AiAssessment where
  provider := "p"
  model := "m"
  modelLicense := "MIT"
  annotations := [("a", { findingId := "a", priorityRank := some 0 })]

theorem not_prioritized_rankZero : ¬ (rankZero.enabled = true →
    Prioritized rankZero [firstFinding, secondFinding]
      (prioritizedOrder [firstFinding, secondFinding] rankZero)) := by
  intro hlaw
  have hout : prioritizedOrder [firstFinding, secondFinding] rankZero =
      [secondFinding, firstFinding] := by rfl
  have hordered := (hlaw rfl).ordered
  rw [hout] at hordered
  exact List.rel_of_pairwise_cons hordered List.mem_cons_self

end Vantage.Ai
