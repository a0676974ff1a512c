import Vantage.Scan.Orchestrator

/-!
# What a run returns

The report of a run is about the scan that was asked for, and only a target
without authorization makes a run end otherwise than completed.
-/

namespace Vantage.Scan

open Engines Findings Persistence Scope

variable {σ : Type} {scan scan' scan'' : Scan} {target : Target}

/-- The fields that a run does not change. -/
structure Continues (scan scan' : Scan) : Prop where
  id : scan'.id = scan.id
  tenantId : scan'.tenantId = scan.tenantId
  targetId : scan'.targetId = scan.targetId
  policy : scan'.policy = scan.policy
  createdBy : scan'.createdBy = scan.createdBy
  createdAt : scan'.createdAt = scan.createdAt

theorem Continues.refl (scan : Scan) : Continues scan scan := ⟨rfl, rfl, rfl, rfl, rfl, rfl⟩

theorem Continues.trans (h : Continues scan scan') (h' : Continues scan' scan'') :
    Continues scan scan'' :=
  ⟨h'.id.trans h.id, h'.tenantId.trans h.tenantId, h'.targetId.trans h.targetId,
    h'.policy.trans h.policy, h'.createdBy.trans h.createdBy, h'.createdAt.trans h.createdAt⟩

theorem continues_updatedScan (clock : σ → Time × σ) (scan : Scan) (dst : ScanState)
    (reason : Option String) : Effect.Returns (updatedScan clock scan dst reason) fun scan' ↦
      Continues scan scan' ∧ scan'.state = dst := by
  have hend : ∀ later : Scan, Continues scan later ∧ later.state = dst →
      Effect.Returns (σ := Platform σ) (ε := PyError) (do
        let now ← outside (Effect.total clock)
        pure { later with finishedAt := some now })
        fun scan' ↦ Continues scan scan' ∧ scan'.state = dst := by
    intro later h
    refine (Effect.Returns.trivial _).bind fun now _ ↦ ?_
    exact .pure ⟨h.1.trans ⟨rfl, rfl, rfl, rfl, rfl, rfl⟩, h.2⟩
  have hentered : ∀ started : Option Time, Continues scan
      { scan with state := dst, stateReason := reason, startedAt := started } :=
    fun _ ↦ ⟨rfl, rfl, rfl, rfl, rfl, rfl⟩
  unfold updatedScan
  simp only
  split_ifs
  · refine (Effect.Returns.trivial _).bind fun now _ ↦ Effect.Returns.bind ?_ hend
    exact .pure ⟨hentered _, rfl⟩
  · refine (Effect.Returns.trivial _).bind fun now _ ↦ ?_
    exact .pure ⟨hentered _, rfl⟩
  · exact hend _ ⟨hentered _, rfl⟩
  · exact .pure ⟨hentered _, rfl⟩

theorem continues_setState (o : Orchestrator σ) (scan : Scan) (dst : ScanState)
    (reason : Option String) : Effect.Returns (o.setState scan dst reason) fun scan' ↦
      Continues scan scan' ∧ scan'.state = dst := by
  unfold Orchestrator.setState setState
  split_ifs with hsame hedge
  · exact .pure ⟨Continues.refl scan, hsame⟩
  · exact .raise
  · refine (continues_updatedScan o.env.clock scan dst reason).bind fun scan' h' ↦ ?_
    exact (Effect.Returns.trivial _).bind fun now _ ↦ (Effect.Returns.trivial _).bind fun _ _ ↦
      .pure h'

/-- How a run that returns has ended. -/
structure Answers (scan : Scan) (target : Target) (report : ScanReport) : Prop where
  scan : Continues scan report.scan
  ended : report.scan.state = .completed ∨
    report.scan.state = .failed ∧ report.findings = [] ∧ ∃ now, target.isAuthorized now = false

theorem continues_refuse (o : Orchestrator σ) (scan : Scan) : Effect.Returns (o.refuse scan)
    fun report ↦ Continues scan report.scan ∧ report.scan.state = .failed ∧
      report.findings = [] := by
  refine (continues_setState o scan _ _).bind fun scan₁ h₁ ↦ ?_
  refine (continues_setState o scan₁ _ _).bind fun scan₂ h₂ ↦ ?_
  refine (continues_setState o scan₂ _ _).bind fun scan₃ h₃ ↦ ?_
  exact .pure ⟨h₁.1.trans (h₂.1.trans h₃.1), h₃.2, rfl⟩

theorem continues_planStage (o : Orchestrator σ) (scan : Scan) (target : Target) :
    Effect.Returns (o.planStage scan target) fun r ↦ Continues scan r.1 := by
  refine (continues_setState o scan _ _).bind fun scan₁ h₁ ↦ ?_
  refine (continues_setState o scan₁ _ _).bind fun scan₂ h₂ ↦ ?_
  refine (continues_setState o scan₂ _ _).bind fun scan₃ h₃ ↦ ?_
  exact (Effect.Returns.trivial _).bind fun now _ ↦ .pure (h₁.1.trans (h₂.1.trans h₃.1))

theorem continues_engineStage (o : Orchestrator σ) (scan : Scan) (target : Target)
    (scope : ScopeEngine) (plan : ScanPlan) :
    Effect.Returns (o.engineStage scan target scope plan) fun r ↦ Continues scan r.1 := by
  refine (Effect.Returns.trivial _).bind fun progress _ ↦ ?_
  refine (Effect.Returns.trivial _).bind fun _ _ ↦ ?_
  exact (continues_setState o scan _ _).bind fun scan₁ h₁ ↦ .pure h₁.1

theorem continues_correlationStage (o : Orchestrator σ) (scan : Scan) (target : Target)
    (observations : List Observation) :
    Effect.Returns (o.correlationStage scan target observations) fun r ↦ Continues scan r.1 := by
  refine (Effect.Returns.trivial _).bind fun validated _ ↦ ?_
  refine (Effect.Returns.trivial _).bind fun findings _ ↦ ?_
  refine (Effect.Returns.trivial _).bind fun merged _ ↦ ?_
  refine (continues_setState o scan _ _).bind fun scan₁ h₁ ↦ ?_
  exact (continues_setState o scan₁ _ _).bind fun scan₂ h₂ ↦ .pure (h₁.1.trans h₂.1)

theorem continues_reportStage (o : Orchestrator σ) (scan : Scan) (findings : List UnifiedFinding) :
    Effect.Returns (o.reportStage scan findings) fun r ↦
      Continues scan r.1 ∧ r.1.state = .completed := by
  refine (Effect.Returns.trivial _).bind fun _ _ ↦ ?_
  refine (Effect.Returns.trivial _).bind fun ai _ ↦ ?_
  exact (continues_setState o scan _ _).bind fun scan₁ h₁ ↦ .pure h₁

theorem continues_conduct (o : Orchestrator σ) (scan : Scan) (target : Target) :
    Effect.Returns (o.conduct scan target) fun report ↦
      Continues scan report.scan ∧ report.scan.state = .completed := by
  refine (continues_planStage o scan target).bind fun r₁ h₁ ↦ ?_
  refine (continues_engineStage o r₁.1 target r₁.2.1 r₁.2.2).bind fun r₂ h₂ ↦ ?_
  refine (continues_correlationStage o r₂.1 target r₂.2.observations).bind fun r₃ h₃ ↦ ?_
  refine (continues_reportStage o r₃.1 r₃.2).bind fun r₄ h₄ ↦ ?_
  exact .pure ⟨h₁.trans (h₂.trans (h₃.trans h₄.1)), h₄.2⟩

theorem answers_run (o : Orchestrator σ) (scan : Scan) (target : Target) :
    Effect.Returns (o.run scan target) (Answers scan target) := by
  refine (Effect.Returns.trivial _).bind fun now _ ↦ ?_
  split_ifs with hauthorized
  · exact (continues_conduct o scan target).mono fun report h ↦ ⟨h.1, Or.inl h.2⟩
  · refine (continues_refuse o scan).mono fun report h ↦ ⟨h.1, Or.inr ⟨h.2.1, h.2.2, now, ?_⟩⟩
    exact Bool.eq_false_iff.mpr hauthorized

end Vantage.Scan
