import Vantage.Lib.Appends
import Vantage.Scan.Seeds

/-!
# What a run does outside the database

The rest of the world is moved only by the clock, by the engines on requests
for the target, by the probes of validation and by the calls of the analyst.
-/

namespace Vantage.Scan

open Engines Findings Persistence Scope Ai Planner

variable {σ : Type} {R : σ → σ → Prop} {o : Orchestrator σ} {scan : Scan} {target : Target}

/-- A URL that engines may be pointed at. -/
def SeedOf (re : Scope.RegexEngine String) (target : Target) (url : String) : Prop :=
  url ∈ target.baseUrls ∨ ∃ now, (ScopeEngine.ofTarget target now).Allows re url none

/-- The request that is made for an engine, with seeds for the target. -/
def RequestFor (o : Orchestrator σ) (target : Target) (request : EngineRunRequest) : Prop :=
  ∃ (scan : Scan) (md : EngineMetadata) (task : PlannedTask) (seeds : List String) (runId : String),
    (∀ url ∈ seeds, SeedOf o.env.regex target url) ∧
      EngineRunRequest.modelValidate runId (requestOf scan target md task seeds) = .ok request

/-- The calls that a run makes outside the database move the world along `R`. -/
structure Moving (R : σ → σ → Prop) (o : Orchestrator σ) (target : Target) : Prop where
  plans : PlansItself o
  clock : Effect.Moves R (Effect.total o.env.clock : Effect PyError σ Time)
  newIds : Effect.Moves R (Effect.total o.env.newIds : Effect PyError σ (ℕ → String))
  metadata : ∀ i x, o.registry.adapterFor i = some x → Effect.Moves R x.metadata
  healthCheck : ∀ i x, o.registry.adapterFor i = some x → Effect.Moves R x.healthCheck
  lifecycle : ∀ i x, o.registry.adapterFor i = some x → ∀ request, RequestFor o target request →
    Effect.Moves R (x.lifecycle request)
  factory : ∀ factory, o.proberFactory = some factory → Effect.Moves R (factory target)
  validate : ∀ factory, o.proberFactory = some factory → ∀ w prober w',
    factory target w = (.ok prober, w') → ∀ strategy ∈ o.validation.strategies, ∀ obs,
      Effect.Moves R (strategy.validate obs prober)
  available : Effect.Moves R o.analyst.available
  complete : ∀ findings, Effect.Moves R (o.analyst.complete findings)

/-- The rest of the world is moved along `R`. -/
def Outside (R : σ → σ → Prop) (p p' : Platform σ) : Prop := R p.world p'.world

instance [IsPreorder σ R] : IsPreorder (Platform σ) (Outside R) where
  refl p := refl_of R p.world
  trans _ _ _ h h' := trans_of R h h'

theorem moves_outside_of {α : Type} {m : Effect PyError σ α} (h : Effect.Moves R m) :
    Effect.Moves (Outside R) (outside m) := fun p ↦ h p.world

section Parts

variable [IsPreorder σ R]

theorem outside_unitOfWork (body : Database → Except PyError Database) :
    Effect.Moves (Outside R) (unitOfWork body : Effect PyError (Platform σ) Unit) := by
  intro p
  cases hbody : body p.db with
  | error e =>
      rw [unitOfWork_of_error hbody]
      exact refl_of (Outside R) p
  | ok db =>
      rw [unitOfWork_of_ok hbody]
      exact refl_of R p.world

theorem outside_storeObservations (observations : List Observation) :
    Effect.Moves (Outside R) (storeObservations observations : Effect PyError (Platform σ) Unit) := by
  unfold storeObservations
  split_ifs
  · exact .pure _
  · exact outside_unitOfWork _

theorem outside_setState
    (hclock : Effect.Moves R (Effect.total o.env.clock : Effect PyError σ Time)) (scan : Scan)
    (dst : ScanState) (reason : Option String) :
    Effect.Moves (Outside R) (o.setState scan dst reason) := by
  have hnow : Effect.Moves (Outside R) (outside (Effect.total o.env.clock) :
      Effect PyError (Platform σ) Time) := moves_outside_of hclock
  have hupdated : Effect.Moves (Outside R) (updatedScan o.env.clock scan dst reason) := by
    have hend : ∀ later : Scan, Effect.Moves (Outside R) (do
        let now ← outside (Effect.total o.env.clock)
        pure { later with finishedAt := some now } : Effect PyError (Platform σ) Scan) :=
      fun later ↦ hnow.bind fun _ ↦ .pure _
    unfold updatedScan
    simp only
    split_ifs
    · exact hnow.bind fun now ↦ Effect.Moves.bind (.pure _) hend
    · exact hnow.bind fun now ↦ .pure _
    · exact hend _
    · exact .pure _
  unfold Orchestrator.setState setState
  split_ifs
  · exact .pure _
  · exact fun p ↦ refl_of (Outside R) p
  · refine hupdated.bind fun scan' ↦ hnow.bind fun now ↦ ?_
    exact (outside_unitOfWork _).bind fun _ ↦ .pure _

/-- The shipped strategies do nothing but probe. -/
theorem moves_strategy {prober : Prober σ} (hget : ∀ url, Effect.Moves R (prober.get url))
    {strategy : ValidationStrategy σ}
    (hstrategy : strategy ∈ ({} : ValidationEngine σ).strategies) (obs : Observation) :
    Effect.Moves R (strategy.validate obs prober) := by
  rcases List.mem_cons.mp hstrategy with rfl | hstrategy
  · refine (hget _).bind fun resp ↦ ?_
    refine Effect.Moves.bind (.ofExcept _) fun ev ↦ ?_
    split_ifs
    · exact .pure _
    · exact .pure _
  · obtain rfl := List.mem_singleton.mp hstrategy
    change Effect.Moves R (ReflectionConsistency.validate obs prober)
    unfold ReflectionConsistency.validate
    simp only
    split_ifs
    · exact .pure _
    · refine (hget _).bind fun base ↦ ?_
      refine Effect.Moves.bind (.ofExcept _) fun ev ↦ ?_
      split_ifs
      · exact .pure _
      · exact .pure _

end Parts

namespace Moving

variable [IsPreorder σ R] (h : Moving R o target)
include h

/-! ## The engine loop -/

theorem attempt {i : String} {x : EngineAdapter σ} (hx : o.registry.adapterFor i = some x)
    {request : EngineRunRequest} (hrequest : RequestFor o target request) :
    Effect.Moves R (Scan.attempt x request) := by
  refine Effect.Moves.recover ?_ fun _ ↦ .pure _
  refine (h.healthCheck i x hx).bind fun health ↦ ?_
  split_ifs
  · exact .pure _
  · exact h.lifecycle i x hx request hrequest

theorem runEngine {i : String} {x : EngineAdapter σ} (hx : o.registry.adapterFor i = some x)
    (task : PlannedTask) {seeds : List String} (hseeds : ∀ url ∈ seeds, SeedOf o.env.regex target url)
    (covered : RequestKnowledgeBase) :
    Effect.Moves R (o.runEngine scan target x task seeds covered) := by
  refine (h.metadata i x hx).bind fun md ↦ h.newIds.bind fun ids ↦ ?_
  have hrequest : Effect.Returns (Effect.ofExcept (σ := σ)
      (EngineRunRequest.modelValidate (ids 0) (requestOf scan target md task seeds)))
      (RequestFor o target) :=
    .ofExcept fun request hok ↦ ⟨scan, md, task, seeds, ids 0, hseeds, hok⟩
  refine Effect.Moves.bind_of_returns (.ofExcept _) hrequest fun request hrequest ↦ ?_
  exact (h.attempt hx hrequest).bind fun _ ↦ .pure _

/-- What has been discovered is in scope. -/
def Good (o : Orchestrator σ) (target : Target) (progress : Progress) : Prop :=
  ∀ url ∈ progress.discovered, SeedOf o.env.regex target url

omit h in
theorem good_runTask (scan : Scan) {now : Time} {progress : Progress} (hgood : Good o target progress)
    (entry : StageKind × PlannedTask) :
    Effect.Returns (o.runTask scan target (.ofTarget target now) progress entry)
      (Good o target) := by
  unfold Orchestrator.runTask
  cases o.registry.adapterFor entry.2.engineId with
  | none => exact .pure hgood
  | some x =>
      refine (Effect.Returns.trivial _).bind fun result _ ↦ ?_
      have hfound : ∀ found, collectDiscovered
          (fun url ↦ (ScopeEngine.ofTarget target now).verdict o.env.regex url none) maxDiscovered
          (evidenceUrls result.1) progress.discovered = .ok found →
          ∀ url ∈ found, SeedOf o.env.regex target url := by
        intro found hfound url hurl
        rcases mem_collectDiscovered hfound hurl with hurl | ⟨-, hallows⟩
        · exact hgood url hurl
        · exact Or.inr ⟨now, hallows⟩
      refine (Effect.Returns.ofExcept hfound).bind fun found hgoodFound ↦ ?_
      exact .pure hgoodFound

theorem runTask {now : Time} {progress : Progress} (hgood : Good o target progress)
    {entry : StageKind × PlannedTask}
    (hseeds : ∀ url ∈ entry.2.seedUrls, SeedOf o.env.regex target url) :
    Effect.Moves R (o.runTask scan target (.ofTarget target now) progress entry) := by
  unfold Orchestrator.runTask
  cases hx : o.registry.adapterFor entry.2.engineId with
  | none => exact .pure _
  | some x =>
      have hall : ∀ url ∈ seedsOf entry.1 entry.2 progress.discovered,
          SeedOf o.env.regex target url :=
        fun url hurl ↦ (mem_seedsOf hurl).elim (hseeds url) (hgood url)
      refine (h.runEngine hx entry.2 hall progress.covered).bind fun result ↦ ?_
      exact Effect.Moves.bind (.ofExcept _) fun _ ↦ .pure _

theorem engineLoop {now : Time} {tasks : List (StageKind × PlannedTask)}
    (hseeds : ∀ entry ∈ tasks, ∀ url ∈ entry.2.seedUrls, SeedOf o.env.regex target url) :
    Effect.Moves R (o.engineLoop scan target (.ofTarget target now) tasks) := by
  refine Effect.Moves.foldl_of_returns (J := Good o target) (fun entry hentry progress hgood ↦ ?_) ?_
  · exact ⟨h.runTask hgood (hseeds entry hentry), good_runTask scan hgood entry⟩
  · exact List.forall_mem_nil _

/-! ## The other stages -/

theorem validationStage (observations : List Observation) :
    Effect.Moves R (o.validationStage target observations) := by
  unfold Orchestrator.validationStage
  cases hfactory : o.proberFactory with
  | none => exact .pure _
  | some factory =>
      simp only
      split_ifs
      · refine (h.factory factory hfactory).bind_of_ok fun w prober w' hprober ↦ ?_
        refine Effect.Moves.collect (fun obs _ ↦ ?_) w'
        refine Effect.Moves.bind (.recover ?_ fun _ ↦ .pure _) fun _ ↦ .pure _
        unfold ValidationEngine.validate
        cases hstrategy : o.validation.strategies.find? (·.handles obs) with
        | none => exact .pure _
        | some strategy =>
            have hmem := List.mem_of_find?_eq_some hstrategy
            refine (h.validate factory hfactory w prober w' hprober strategy hmem obs).bind ?_
            exact fun result ↦ h.clock.bind fun now ↦ .pure _
      · exact .pure _

theorem mergeAcrossScans (previous current : List UnifiedFinding) :
    Effect.Moves R (o.mergeAcrossScans previous current) := by
  refine Effect.Moves.collect fun f _ ↦ ?_
  cases previous.reverse.find? (·.fingerprint = f.fingerprint) with
  | none => exact .pure _
  | some old => exact h.clock.bind fun now ↦ .pure _

theorem mergeHistory (findings : List UnifiedFinding) :
    Effect.Moves (Outside R) (o.mergeHistory scan target findings) := by
  refine Effect.Moves.get.bind fun p ↦ ?_
  cases (p.db.listScans scan.tenantId (some .completed)).filter
      (fun s ↦ s.targetId = target.id ∧ s.id ≠ scan.id) with
  | nil => exact .pure _
  | cons last rest => exact moves_outside_of (h.mergeAcrossScans _ _)

theorem assess (loads : String → Except PyError Json) (findings : List UnifiedFinding) :
    Effect.Moves R (Ai.assess loads o.analyst findings) := by
  unfold Ai.assess
  split_ifs
  · exact .pure _
  · refine h.available.bind fun available ↦ ?_
    split_ifs
    · exact .pure _
    · refine Effect.Moves.bind (.recover ?_ fun _ ↦ .pure _) fun reply ↦ ?_
      · exact (h.complete findings).bind fun resp ↦ .pure _
      · cases reply with
        | none => exact .pure _
        | some resp => exact Effect.Moves.bind (.ofExcept _) fun data ↦ .ofExcept _

theorem conduct (scan : Scan) : Effect.Moves (Outside R) (o.conduct scan target) := by
  have hset := outside_setState h.clock
  have hplan : Effect.Moves (Outside R) (o.planStage scan target) := by
    refine (hset scan _ _).bind fun scan₁ ↦ (hset scan₁ _ _).bind fun scan₂ ↦ ?_
    refine (hset scan₂ _ _).bind fun scan₃ ↦ ?_
    exact (moves_outside_of h.clock).bind fun now ↦ .pure _
  refine hplan.bind_of_run fun p ⟨scan₁, scope, plan⟩ p' hrun ↦ ?_
  obtain ⟨⟨now, rfl⟩, -⟩ := planStage_ok hrun
  have hseeds : ∀ entry ∈ plan.tasks, ∀ url ∈ entry.2.seedUrls, SeedOf o.env.regex target url := by
    intro entry hentry url hurl
    rw [seedUrls_of_planStage h.plans hrun hentry] at hurl
    exact Or.inl hurl
  refine Effect.Moves.bind ?_ fun ⟨scan₂, progress⟩ ↦ Effect.Moves.bind ?_
    fun ⟨scan₃, findings⟩ ↦ Effect.Moves.bind ?_ fun ⟨scan₄, findings', ai⟩ ↦ .pure _
  · refine (moves_outside_of (h.engineLoop hseeds)).bind fun progress ↦ ?_
    refine (outside_storeObservations _).bind fun _ ↦ ?_
    exact (hset scan₁ _ _).bind fun _ ↦ .pure _
  · refine (moves_outside_of (h.validationStage _)).bind fun validated ↦ ?_
    refine (moves_outside_of (h.newIds.bind fun _ ↦ .pure _)).bind fun findings ↦ ?_
    refine (h.mergeHistory findings).bind fun merged ↦ ?_
    refine (hset scan₂ _ _).bind fun scan₃ ↦ ?_
    exact (hset scan₃ _ _).bind fun _ ↦ .pure _
  · refine (outside_unitOfWork _).bind fun _ ↦ ?_
    refine (moves_outside_of (h.assess _ _)).bind fun ai ↦ ?_
    exact (hset scan₃ _ _).bind fun _ ↦ .pure _

end Moving

theorem outside_refuse [IsPreorder σ R]
    (hclock : Effect.Moves R (Effect.total o.env.clock : Effect PyError σ Time)) (scan : Scan) :
    Effect.Moves (Outside R) (o.refuse scan) := by
  refine (outside_setState hclock scan _ _).bind fun scan₁ ↦ ?_
  refine (outside_setState hclock scan₁ _ _).bind fun scan₂ ↦ ?_
  exact (outside_setState hclock scan₂ _ _).bind fun _ ↦ .pure _

end Vantage.Scan
