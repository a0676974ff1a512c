import Vantage.Planner.Planner
import Vantage.Scan.EngineLoop

/-!
# What a plan accounts for

Each occurrence of a wanted capability ends up once in the tasks of every
engine that is chosen for it, or else in the list of skipped ones. The rounds
of the planner keep a tally of the capabilities they have been through.
-/

namespace Vantage.Planner

variable {p : ScanPlanner} {target : Target} {policy : ScanPolicy} {seedUrls : List String}
  {cap : Capability}

/-- No engine of the catalog that is not disabled provides the capability. -/
def Unprovided (p : ScanPlanner) (policy : ScanPolicy) (cap : Capability) : Prop :=
  ∀ md ∈ p.enginesFor cap, md.id ∈ policy.disabledEngines

instance (p : ScanPlanner) (policy : ScanPolicy) (cap : Capability) :
    Decidable (Unprovided p policy cap) := List.decidableBAll _ _

def skippedEntry (cap : Capability) : String :=
  cap.value ++ ": no enabled engine provides this capability"

/-- The capabilities in the tasks of an engine, with their repetitions. -/
def capabilitiesOf (engineId : String) (tasks : List PlannedTask) : List Capability :=
  (tasks.filter (·.engineId = engineId)).flatMap PlannedTask.capabilities

/-- The capabilities in the tasks of an engine at a stage of a plan. -/
def plannedFor (plan : ScanPlan) (kind : StageKind) (engineId : String) : List Capability :=
  capabilitiesOf engineId ((plan.tasks.filter (·.1 = kind)).map Prod.snd)

/-- The plan accounts for the wanted capabilities, and is well formed. -/
structure Accounts (p : ScanPlanner) (target : Target) (policy : ScanPolicy)
    (seedUrls : List String) (plan : ScanPlan) : Prop where
  skipped : plan.skipped =
    ((wantedCapabilities target policy).filter (Unprovided p policy ·)).map skippedEntry
  planned : ∀ cap kind engineId, (plannedFor plan kind engineId).count cap =
    if kind = capStage cap ∧ engineId ∈ (p.chosen policy cap).map EngineMetadata.id then
      (wantedCapabilities target policy).count cap
    else 0
  one_task : ∀ stage ∈ plan.stages, (stage.tasks.map PlannedTask.engineId).Nodup
  stage_ne : ∀ stage ∈ plan.stages, stage.tasks ≠ []
  ordered : (plan.stages.map PlanStage.kind).Sublist stageOrder
  task : ∀ stage ∈ plan.stages, ∀ task ∈ stage.tasks, task.capabilities ≠ [] ∧
    task.seedUrls = seedUrls ∧ task.engineId ∉ policy.disabledEngines

theorem chosen_eq_nil_iff : p.chosen policy cap = [] ↔ Unprovided p policy cap := by
  have hnil : (p.enginesFor cap).filter (·.id ∉ policy.disabledEngines) = [] ↔
      Unprovided p policy cap := by
    simp [List.filter_eq_nil_iff, Unprovided]
  unfold ScanPlanner.chosen
  dsimp only
  split_ifs
  · exact hnil
  · rw [List.take_eq_nil_iff, hnil]
    simp

theorem chosen_sublist : (p.chosen policy cap).Sublist
    ((p.enginesFor cap).filter (·.id ∉ policy.disabledEngines)) := by
  unfold ScanPlanner.chosen
  dsimp only
  split_ifs
  · exact List.Sublist.refl _
  · exact List.take_sublist 1 _

theorem enabled_of_mem_chosen {md : EngineMetadata} (h : md ∈ p.chosen policy cap) :
    md.id ∉ policy.disabledEngines := by
  have hmem := List.mem_filter.mp (chosen_sublist.subset h)
  simpa using hmem.2

theorem nodup_chosen (h : ((p.enginesFor cap).map EngineMetadata.id).Nodup) :
    ((p.chosen policy cap).map EngineMetadata.id).Nodup :=
  h.sublist ((chosen_sublist.trans List.filter_sublist).map EngineMetadata.id)

/-! ## One engine -/

theorem capabilitiesOf_cons_same {t : PlannedTask} {engineId : String} (tasks : List PlannedTask)
    (h : t.engineId = engineId) : capabilitiesOf engineId (t :: tasks) =
      t.capabilities ++ capabilitiesOf engineId tasks := by
  simp [capabilitiesOf, h]

theorem capabilitiesOf_cons_ne {t : PlannedTask} {engineId : String} (tasks : List PlannedTask)
    (h : t.engineId ≠ engineId) : capabilitiesOf engineId (t :: tasks) = capabilitiesOf engineId tasks := by
  simp [capabilitiesOf, h]

/-- An engine that takes on a capability has it once more. -/
theorem count_assign {task : PlannedTask} (htask : task.capabilities = [cap])
    (tasks : List PlannedTask) (engineId : String) (c : Capability) :
    (capabilitiesOf engineId (assign cap task tasks)).count c =
      (capabilitiesOf engineId tasks).count c + if task.engineId = engineId ∧ cap = c then 1 else 0 := by
  have hsingle : [cap].count c = if cap = c then 1 else 0 := by
    simp [List.count_singleton]
  induction tasks with
  | nil =>
      by_cases he : task.engineId = engineId
      · rw [assign, capabilitiesOf_cons_same [] he, htask, List.count_append, hsingle]
        simp [capabilitiesOf, he]
      · simp [assign, capabilitiesOf_cons_ne [] he, he]
  | cons t tasks ih =>
      by_cases hsame : t.engineId = task.engineId
      · have hadd : (addCapability cap t).engineId = t.engineId := rfl
        rw [assign, if_pos hsame]
        by_cases he : t.engineId = engineId
        · have hcaps : (addCapability cap t).capabilities = t.capabilities ++ [cap] := rfl
          have htaskId : task.engineId = engineId := hsame ▸ he
          rw [capabilitiesOf_cons_same tasks (hadd.trans he), capabilitiesOf_cons_same tasks he,
            hcaps, List.count_append, List.count_append, List.count_append, hsingle]
          simp only [htaskId, true_and]
          omega
        · have hne : ¬ task.engineId = engineId := hsame ▸ he
          rw [capabilitiesOf_cons_ne tasks he, capabilitiesOf_cons_ne tasks (hadd ▸ he)]
          simp [hne]
      · rw [assign, if_neg hsame]
        by_cases he : t.engineId = engineId
        · rw [capabilitiesOf_cons_same _ he, capabilitiesOf_cons_same _ he, List.count_append,
            List.count_append, ih, Nat.add_assoc]
        · rw [capabilitiesOf_cons_ne _ he, capabilitiesOf_cons_ne _ he, ih]

theorem mem_ids_assign {task : PlannedTask} {tasks : List PlannedTask} {engineId : String} :
    engineId ∈ (assign cap task tasks).map PlannedTask.engineId ↔
      engineId = task.engineId ∨ engineId ∈ tasks.map PlannedTask.engineId := by
  induction tasks with
  | nil => simp [assign]
  | cons t tasks ih =>
      unfold assign
      split_ifs with hsame
      · simp [addCapability, hsame]
      · rw [List.map_cons, List.mem_cons, ih, List.map_cons, List.mem_cons]
        tauto

theorem nodup_assign {task : PlannedTask} {tasks : List PlannedTask}
    (h : (tasks.map PlannedTask.engineId).Nodup) :
    ((assign cap task tasks).map PlannedTask.engineId).Nodup := by
  induction tasks with
  | nil => simp [assign]
  | cons t tasks ih =>
      rw [List.map_cons, List.nodup_cons] at h
      unfold assign
      split_ifs with hsame
      · exact List.nodup_cons.mpr h
      · rw [List.map_cons, List.nodup_cons, mem_ids_assign]
        exact ⟨not_or.mpr ⟨hsame, h.1⟩, ih h.2⟩

/-! ## All engines of a capability -/

theorem count_assignAll {engines : List EngineMetadata}
    (hengines : (engines.map EngineMetadata.id).Nodup) (tasks : List PlannedTask)
    (engineId : String) (c : Capability) :
    (capabilitiesOf engineId
        (ScanPlanner.assignAll target policy seedUrls cap engines tasks)).count c =
      (capabilitiesOf engineId tasks).count c +
        if engineId ∈ engines.map EngineMetadata.id ∧ cap = c then 1 else 0 := by
  induction engines generalizing tasks with
  | nil => simp [ScanPlanner.assignAll]
  | cons md engines ih =>
      rw [List.map_cons, List.nodup_cons] at hengines
      have hnew : (newTask target policy seedUrls cap md).capabilities = [cap] := rfl
      have hfirst := count_assign hnew tasks engineId c
      have hrest := ih hengines.2 (assign cap (newTask target policy seedUrls cap md) tasks)
      rw [ScanPlanner.assignAll, List.foldl_cons]
      rw [ScanPlanner.assignAll, hfirst] at hrest
      rw [hrest]
      simp only [newTask, List.map_cons, List.mem_cons]
      by_cases he : md.id = engineId
      · subst he
        simp [hengines.1]
      · have hne : ¬ engineId = md.id := fun h ↦ he h.symm
        simp [he, hne]

theorem nodup_assignAll {engines : List EngineMetadata} {tasks : List PlannedTask}
    (h : (tasks.map PlannedTask.engineId).Nodup) :
    ((ScanPlanner.assignAll target policy seedUrls cap engines tasks).map
      PlannedTask.engineId).Nodup := by
  induction engines generalizing tasks with
  | nil => exact h
  | cons md engines ih => exact ih (nodup_assign h)
/-! ## The rounds of the planner -/

/-- What a draft holds after the rounds for some capabilities. -/
structure Tally (p : ScanPlanner) (policy : ScanPolicy) (caps : List Capability) (d : Draft) :
    Prop where
  planned : ∀ kind engineId c, (capabilitiesOf engineId (d.stages kind)).count c =
    if kind = capStage c ∧ engineId ∈ (p.chosen policy c).map EngineMetadata.id then caps.count c
    else 0
  skipped : d.skipped = (caps.filter (Unprovided p policy ·)).map skippedEntry
  one_task : ∀ kind, ((d.stages kind).map PlannedTask.engineId).Nodup
  enabled : ∀ kind, ∀ task ∈ d.stages kind, task.engineId ∉ policy.disabledEngines

theorem tally_nil : Tally p policy [] {} := by
  refine ⟨?_, rfl, ?_, ?_⟩ <;> simp [capabilitiesOf]

theorem enabled_assignAll {engines : List EngineMetadata} {tasks : List PlannedTask}
    (hengines : ∀ md ∈ engines, md.id ∉ policy.disabledEngines)
    (htasks : ∀ task ∈ tasks, task.engineId ∉ policy.disabledEngines) :
    ∀ task ∈ ScanPlanner.assignAll target policy seedUrls cap engines tasks,
      task.engineId ∉ policy.disabledEngines := by
  induction engines generalizing tasks with
  | nil => exact htasks
  | cons md engines ih =>
      apply ih fun md' hmd' ↦ hengines md' (List.mem_cons_of_mem md hmd')
      exact assign_forall (P := fun task ↦ task.engineId ∉ policy.disabledEngines)
        (fun _ ht ↦ ht) (hengines md List.mem_cons_self) htasks

/-- A round assigns the capability at its own stage, to nobody where it is not provided. -/
theorem stages_planCapability (d : Draft) (kind : StageKind) :
    (p.planCapability target policy seedUrls d cap).stages kind =
      if kind = capStage cap then
        ScanPlanner.assignAll target policy seedUrls cap (p.chosen policy cap) (d.stages kind)
      else d.stages kind := by
  unfold ScanPlanner.planCapability
  by_cases hnone : p.chosen policy cap = []
  · simp [hnone, ScanPlanner.assignAll]
  · have hnotEmpty : (p.chosen policy cap).isEmpty = false := by simp [hnone]
    simp only [hnotEmpty, Bool.false_eq_true, if_false]
    split_ifs with hkind
    · rw [hkind, Function.update_self]
    · rw [Function.update_of_ne hkind]

theorem skipped_planCapability (d : Draft) :
    (p.planCapability target policy seedUrls d cap).skipped =
      d.skipped ++ if Unprovided p policy cap then [skippedEntry cap] else [] := by
  unfold ScanPlanner.planCapability
  by_cases hnone : p.chosen policy cap = []
  · simp [hnone, chosen_eq_nil_iff.mp hnone, skippedEntry]
  · have hprovided : ¬ Unprovided p policy cap := fun hun ↦ hnone (chosen_eq_nil_iff.mpr hun)
    simp [hnone, hprovided]

/-- A round books one more occurrence of its capability. -/
theorem Tally.planCapability (hdistinct : ((p.enginesFor cap).map EngineMetadata.id).Nodup)
    {caps : List Capability} {d : Draft} (h : Tally p policy caps d) :
    Tally p policy (caps ++ [cap]) (p.planCapability target policy seedUrls d cap) := by
  have hcount : ∀ c, (caps ++ [cap]).count c = caps.count c + if cap = c then 1 else 0 := by
    intro c
    simp [List.count_append, List.count_singleton]
  refine ⟨?_, ?_, ?_, ?_⟩
  · intro kind engineId c
    rw [stages_planCapability, hcount]
    by_cases hkind : kind = capStage cap
    · rw [if_pos hkind, count_assignAll (nodup_chosen hdistinct), h.planned]
      by_cases hc : cap = c
      · subst hc
        simp only [hkind, true_and, and_true, if_true]
        split_ifs <;> rfl
      · simp [hc]
    · rw [if_neg hkind, h.planned]
      by_cases hc : cap = c
      · subst hc
        simp [hkind]
      · simp [hc]
  · rw [skipped_planCapability, h.skipped, List.filter_append, List.map_append]
    by_cases hun : Unprovided p policy cap <;> simp [hun]
  · intro kind
    rw [stages_planCapability]
    split_ifs
    · exact nodup_assignAll (h.one_task kind)
    · exact h.one_task kind
  · intro kind
    rw [stages_planCapability]
    split_ifs
    · exact enabled_assignAll (fun md hmd ↦ enabled_of_mem_chosen hmd) (h.enabled kind)
    · exact h.enabled kind

theorem tally_foldl (hdistinct : ∀ cap, ((p.enginesFor cap).map EngineMetadata.id).Nodup)
    (caps : List Capability) {before : List Capability} {d : Draft} (h : Tally p policy before d) :
    Tally p policy (before ++ caps) (caps.foldl (p.planCapability target policy seedUrls) d) := by
  induction caps generalizing before d with
  | nil => simpa using h
  | cons cap caps ih =>
      have hround : Tally p policy (before ++ [cap]) (p.planCapability target policy seedUrls d cap) :=
        h.planCapability (hdistinct cap)
      simpa using ih hround

/-! ## The plan -/

/-- Stages without tasks are no loss to the list of tasks. -/
theorem tasks_plan : (p.plan target policy seedUrls).tasks = stageOrder.flatMap fun kind ↦
    ((p.draft target policy seedUrls).stages kind).map fun task ↦ (kind, task) := by
  unfold ScanPlan.tasks ScanPlanner.plan
  dsimp only
  generalize (p.draft target policy seedUrls).stages = stages
  rw [List.flatMap_map]
  induction stageOrder with
  | nil => rfl
  | cons kind kinds ih =>
      by_cases hnone : stages kind = []
      · rw [List.filter_cons_of_neg (by simp [hnone]), ih, List.flatMap_cons, hnone]
        rfl
      · rw [List.filter_cons_of_pos (by simp [hnone]), List.flatMap_cons, ih, List.flatMap_cons]

theorem plannedFor_plan (kind : StageKind) (engineId : String) :
    plannedFor (p.plan target policy seedUrls) kind engineId =
      capabilitiesOf engineId ((p.draft target policy seedUrls).stages kind) := by
  have hstage : ∀ s, ((((p.draft target policy seedUrls).stages s).map fun task ↦ (s, task)).filter
      (·.1 = kind)).map Prod.snd = if s = kind then (p.draft target policy seedUrls).stages s else [] := by
    intro s
    split_ifs with h <;> simp [List.filter_map, Function.comp_def, h]
  rw [plannedFor, tasks_plan, List.filter_flatMap, List.map_flatMap]
  simp only [hstage]
  cases kind <;> simp [stageOrder]

/-- A catalog that lists no engine twice is accounted for in every plan. -/
theorem accounts_plan (p : ScanPlanner) (target : Target) (policy : ScanPolicy)
    (seedUrls : List String)
    (hdistinct : ∀ cap, ((p.enginesFor cap).map EngineMetadata.id).Nodup) :
    Accounts p target policy seedUrls (p.plan target policy seedUrls) := by
  have htally : Tally p policy (wantedCapabilities target policy)
      (p.draft target policy seedUrls) := tally_foldl hdistinct _ tally_nil
  have hstage : ∀ stage ∈ (p.plan target policy seedUrls).stages,
      stage.tasks = (p.draft target policy seedUrls).stages stage.kind ∧ stage.tasks ≠ [] := by
    intro stage hstage
    obtain ⟨kind, hkind, rfl⟩ := List.mem_map.mp hstage
    exact ⟨rfl, by simpa using (List.mem_filter.mp hkind).2⟩
  refine ⟨htally.skipped, ?_, ?_, fun stage hmem ↦ (hstage stage hmem).2, ?_, ?_⟩
  · intro cap kind engineId
    rw [plannedFor_plan]
    exact htally.planned kind engineId cap
  · intro stage hmem
    rw [(hstage stage hmem).1]
    exact htally.one_task stage.kind
  · have hkinds : (p.plan target policy seedUrls).stages.map PlanStage.kind =
        stageOrder.filter fun s ↦ !((p.draft target policy seedUrls).stages s).isEmpty := by
      simp [ScanPlanner.plan, Function.comp_def]
    rw [hkinds]
    exact List.filter_sublist
  · intro stage hmem task htask
    refine ⟨task.capabilities_ne, seedUrls_of_mem_plan stage hmem task htask, ?_⟩
    rw [(hstage stage hmem).1] at htask
    exact htally.enabled stage.kind task htask

/-! ## The allowlist -/

/-- What is planned is on the list of the policy, and matters for the kind of the target. -/
structure WithinAllowlist (target : Target) (policy : ScanPolicy) (plan : ScanPlan) : Prop where
  listed : ∀ stage ∈ plan.stages, ∀ task ∈ stage.tasks, ∀ cap ∈ task.capabilities,
    cap ∈ policy.capabilities.getD (profileCaps policy.profile)
  relevant : target.kind ≠ .unknown → ∀ stage ∈ plan.stages, ∀ task ∈ stage.tasks,
    ∀ cap ∈ task.capabilities, cap ∈ universalCaps ∨ cap ∈ kindCaps target.kind

theorem wanted_of_mem_plan : ∀ stage ∈ (p.plan target policy seedUrls).stages,
    ∀ task ∈ stage.tasks, ∀ cap ∈ task.capabilities, cap ∈ wantedCapabilities target policy := by
  refine plan_forall (fun cap hcap t ht ↦ ?_) fun cap hcap md ↦ ?_
  · intro c hc
    rcases List.mem_append.mp hc with hc | hc
    · exact ht c hc
    · exact List.mem_singleton.mp hc ▸ hcap
  · intro c hc
    exact List.mem_singleton.mp hc ▸ hcap

/-- The list of the policy where it has one that is not empty, else that of the profile. -/
theorem mem_wantedCapabilities : cap ∈ wantedCapabilities target policy ↔
    cap ∈ (if policy.capabilities = some [] then profileCaps policy.profile
      else policy.capabilities.getD (profileCaps policy.profile)) ∧
    (target.kind = .unknown ∨ cap ∈ universalCaps ∨ cap ∈ kindCaps target.kind) := by
  unfold wantedCapabilities
  dsimp only
  rw [List.mem_filter]
  rcases policy.capabilities with _ | _ | ⟨c, caps⟩ <;>
    by_cases hkind : target.kind = .unknown <;> simp [hkind]

theorem assign_ne_nil (task : PlannedTask) (tasks : List PlannedTask) :
    assign cap task tasks ≠ [] := by
  cases tasks with
  | nil => exact List.cons_ne_nil _ _
  | cons t tasks =>
      unfold assign
      split_ifs
      · exact List.cons_ne_nil _ _
      · exact List.cons_ne_nil _ _

theorem assignAll_ne_nil {engines : List EngineMetadata} {tasks : List PlannedTask}
    (h : engines ≠ [] ∨ tasks ≠ []) :
    ScanPlanner.assignAll target policy seedUrls cap engines tasks ≠ [] := by
  induction engines generalizing tasks with
  | nil => exact h.resolve_left fun hne ↦ hne rfl
  | cons md engines ih => exact ih (Or.inr (assign_ne_nil _ _))

/-- A round leaves a stage with tasks, and gives some to its own if an engine is chosen. -/
theorem stages_planCapability_ne_nil {d : Draft} {kind : StageKind}
    (h : d.stages kind ≠ [] ∨ kind = capStage cap ∧ p.chosen policy cap ≠ []) :
    (p.planCapability target policy seedUrls d cap).stages kind ≠ [] := by
  rw [stages_planCapability]
  split_ifs with hkind
  · exact assignAll_ne_nil (h.symm.imp_left And.right)
  · exact h.resolve_right fun hchosen ↦ hkind hchosen.1

theorem stages_draft_ne_nil (hcap : cap ∈ wantedCapabilities target policy)
    (hprovided : ¬ Unprovided p policy cap) :
    (p.draft target policy seedUrls).stages (capStage cap) ≠ [] := by
  have hchosen : p.chosen policy cap ≠ [] := fun h ↦ hprovided (chosen_eq_nil_iff.mp h)
  obtain ⟨before, after, hsplit⟩ := List.append_of_mem hcap
  unfold ScanPlanner.draft
  rw [hsplit, List.foldl_append, List.foldl_cons]
  refine List.foldlRecOn (motive := fun d : Draft ↦ d.stages (capStage cap) ≠ []) _ _ ?_ ?_
  · exact stages_planCapability_ne_nil (Or.inr ⟨rfl, hchosen⟩)
  · exact fun d hd c _ ↦ stages_planCapability_ne_nil (Or.inl hd)

theorem exists_task_of_provided (hcap : cap ∈ wantedCapabilities target policy)
    (hprovided : ¬ Unprovided p policy cap) :
    ∃ stage ∈ (p.plan target policy seedUrls).stages, ∃ task, task ∈ stage.tasks := by
  have hne : (p.draft target policy seedUrls).stages (capStage cap) ≠ [] :=
    stages_draft_ne_nil hcap hprovided
  refine ⟨⟨capStage cap, (p.draft target policy seedUrls).stages (capStage cap)⟩, ?_,
    List.exists_mem_of_ne_nil _ hne⟩
  refine List.mem_map.mpr ⟨capStage cap, List.mem_filter.mpr ⟨?_, ?_⟩, rfl⟩
  · cases cap <;> decide
  · simpa using hne

theorem provided_of_mem_plan : ∀ stage ∈ (p.plan target policy seedUrls).stages,
    ∀ task ∈ stage.tasks, ∀ cap ∈ task.capabilities, ¬ Unprovided p policy cap := by
  have hdraft : ∀ kind, ∀ task ∈ (p.draft target policy seedUrls).stages kind,
      ∀ cap ∈ task.capabilities, ¬ Unprovided p policy cap := by
    unfold ScanPlanner.draft
    refine List.foldlRecOn (motive := fun d : Draft ↦ ∀ kind, ∀ task ∈ d.stages kind,
      ∀ cap ∈ task.capabilities, ¬ Unprovided p policy cap) _ _ (by simp) ?_
    intro d hd cap _
    by_cases hun : Unprovided p policy cap
    · intro kind
      rw [stages_planCapability, chosen_eq_nil_iff.mpr hun]
      exact fun task htask ↦ hd kind task (by simpa [ScanPlanner.assignAll] using htask)
    · refine planCapability_forall (fun task htask c hc ↦ ?_) (fun md c hc ↦ ?_) hd
      · rcases List.mem_append.mp hc with hc | hc
        · exact htask c hc
        · exact List.mem_singleton.mp hc ▸ hun
      · exact List.mem_singleton.mp hc ▸ hun
  intro stage hstage
  obtain ⟨kind, -, rfl⟩ := List.mem_map.mp hstage
  exact hdraft kind

/-- A plan keeps to the allowlist unless that is an explicit empty one and some
engine provides a capability of the profile. -/
theorem withinAllowlist_iff : WithinAllowlist target policy (p.plan target policy seedUrls) ↔
    (policy.capabilities = some [] → ∀ cap ∈ profileCaps policy.profile,
      (target.kind = .unknown ∨ cap ∈ universalCaps ∨ cap ∈ kindCaps target.kind) →
        Unprovided p policy cap) := by
  constructor
  · intro hwithin hempty cap hcap hrelevant
    by_contra hprovided
    have hwanted : cap ∈ wantedCapabilities target policy := by
      rw [mem_wantedCapabilities, if_pos hempty]
      exact ⟨hcap, hrelevant⟩
    obtain ⟨stage, hstage, task, htask⟩ :
        ∃ stage ∈ (p.plan target policy seedUrls).stages, ∃ task, task ∈ stage.tasks :=
      exists_task_of_provided hwanted hprovided
    obtain ⟨c, hc⟩ := List.exists_mem_of_ne_nil _ task.capabilities_ne
    have hlisted := hwithin.listed stage hstage task htask c hc
    rw [hempty] at hlisted
    exact List.not_mem_nil hlisted
  · intro hempty
    refine ⟨fun stage hstage task htask cap hcap ↦ ?_, fun hkind stage hstage task htask cap hcap ↦ ?_⟩
    · have hwanted := wanted_of_mem_plan stage hstage task htask cap hcap
      obtain ⟨hlist, hrelevant⟩ := mem_wantedCapabilities.mp hwanted
      by_cases hnone : policy.capabilities = some []
      · -- an empty list stands for the profile, of which nothing is provided
        rw [if_pos hnone] at hlist
        exact absurd (hempty hnone cap hlist hrelevant)
          (provided_of_mem_plan stage hstage task htask cap hcap)
      · rwa [if_neg hnone] at hlist
    · have hwanted := wanted_of_mem_plan stage hstage task htask cap hcap
      exact (mem_wantedCapabilities.mp hwanted).2.resolve_left hkind

/-! ## A fixed catalog -/

structure StaticCatalog where
  engines : List EngineMetadata

def StaticCatalog.enginesFor (catalog : StaticCatalog) (cap : Capability) : List EngineMetadata :=
  catalog.engines.filter (·.capabilities.contains cap)

theorem StaticCatalog.nodup_enginesFor {catalog : StaticCatalog}
    (h : (catalog.engines.map EngineMetadata.id).Nodup) (cap : Capability) :
    ((catalog.enginesFor cap).map EngineMetadata.id).Nodup :=
  h.sublist (List.filter_sublist.map EngineMetadata.id)

theorem accounts_plan_static :
    Accounts ⟨(StaticCatalog.mk [Scan.demoMetadata]).enginesFor, {}⟩ Scan.demoTarget {}
      ["https://app.example/"] (ScanPlanner.plan
        ⟨(StaticCatalog.mk [Scan.demoMetadata]).enginesFor, {}⟩ Scan.demoTarget {}
          ["https://app.example/"]) :=
  accounts_plan _ _ _ _ (StaticCatalog.nodup_enginesFor (by simp))

/-- An empty allowlist, and a plan with a passive audit. -/
theorem not_withinAllowlist_emptyAllowlist :
    ¬ WithinAllowlist Scan.demoTarget { capabilities := some [] }
      (ScanPlanner.plan ⟨(StaticCatalog.mk [Scan.demoMetadata]).enginesFor, {}⟩ Scan.demoTarget
        { capabilities := some [] } ["https://app.example/"]) := by
  intro hwithin
  have hcap := hwithin.listed _ List.mem_cons_self _ List.mem_cons_self .auditPassive
    List.mem_cons_self
  exact List.not_mem_nil hcap

end Vantage.Planner
