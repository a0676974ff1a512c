import Vantage.Scan.Prober
import Vantage.Scan.Seeds

/-!
# The bounds of the feedback loop

Both bounds are tested when a URL has been added. A list that is already full
gets one more, in each call.
-/

namespace Vantage.Scan

open Scope Engines Findings Persistence Planner

/-! ## Collecting -/

section Collect

variable {allows : String → Except PyError Bool} {cap : ℕ} {url : String}
  {urls found found' : List String}

/-- What becomes of a reported URL: it is passed over, it is the last one, or it is added. -/
theorem collectDiscovered_cons (h : collectDiscovered allows cap (url :: urls) found = .ok found') :
    ((url ∈ found ∨ allows url = .ok false) ∧ collectDiscovered allows cap urls found = .ok found') ∨
      (url ∉ found ∧ allows url = .ok true) ∧
        (cap ≤ found.length + 1 ∧ found' = found ++ [url] ∨
          found.length + 1 < cap ∧
            collectDiscovered allows cap urls (found ++ [url]) = .ok found') := by
  unfold collectDiscovered at h
  by_cases hknown : url ∈ found
  · rw [if_pos hknown] at h
    exact Or.inl ⟨Or.inl hknown, h⟩
  · rw [if_neg hknown] at h
    obtain ⟨allowed, hurl, h⟩ := ExceptList.exists_of_bind_ok h
    cases allowed with
    | false => exact Or.inl ⟨Or.inr hurl, h⟩
    | true =>
        rw [if_pos rfl, List.length_append, List.length_singleton] at h
        refine Or.inr ⟨⟨hknown, hurl⟩, ?_⟩
        by_cases hfull : cap ≤ found.length + 1
        · rw [if_pos hfull] at h
          exact Or.inl ⟨hfull, (Except.ok.inj h).symm⟩
        · rw [if_neg hfull] at h
          exact Or.inr ⟨not_le.mp hfull, h⟩

theorem nodup_collectDiscovered (h : collectDiscovered allows cap urls found = .ok found')
    (hfound : found.Nodup) : found'.Nodup := by
  induction urls generalizing found with
  | nil =>
      obtain rfl := Except.ok.inj h
      exact hfound
  | cons url urls ih =>
      have hadded : url ∉ found → (found ++ [url]).Nodup := fun hnew ↦
        List.nodup_append.mpr ⟨hfound, List.nodup_singleton url, by
          rintro u hu v hv rfl
          exact hnew (List.mem_singleton.mp hv ▸ hu)⟩
      rcases collectDiscovered_cons h with ⟨-, h⟩ | ⟨⟨hnew, -⟩, ⟨-, rfl⟩ | ⟨-, h⟩⟩
      · exact ih h hfound
      · exact hadded hnew
      · exact ih h (hadded hnew)

theorem prefix_collectDiscovered (h : collectDiscovered allows cap urls found = .ok found') :
    found <+: found' := by
  induction urls generalizing found with
  | nil =>
      obtain rfl := Except.ok.inj h
      exact List.prefix_refl found
  | cons url urls ih =>
      rcases collectDiscovered_cons h with ⟨-, h⟩ | ⟨-, ⟨-, rfl⟩ | ⟨-, h⟩⟩
      · exact ih h
      · exact List.prefix_append found [url]
      · exact (List.prefix_append found [url]).trans (ih h)

/-- As long as there is room, the bound stops the collection in time. -/
theorem length_collectDiscovered_le (h : collectDiscovered allows cap urls found = .ok found')
    (hroom : found.length < cap) : found'.length ≤ cap := by
  induction urls generalizing found with
  | nil =>
      obtain rfl := Except.ok.inj h
      exact hroom.le
  | cons url urls ih =>
      rcases collectDiscovered_cons h with ⟨-, h⟩ | ⟨-, ⟨-, rfl⟩ | ⟨hmore, h⟩⟩
      · exact ih h hroom
      · rw [List.length_append, List.length_singleton]
        exact hroom
      · refine ih h ?_
        rwa [List.length_append, List.length_singleton]

/-- A URL in scope is reported that is not known yet. -/
def Fresh (allows : String → Except PyError Bool) (urls found : List String) : Prop :=
  ∃ url ∈ urls, url ∉ found ∧ allows url = .ok true

theorem collectDiscovered_of_not_fresh
    (h : collectDiscovered allows cap urls found = .ok found') (hold : ¬ Fresh allows urls found) :
    found' = found := by
  induction urls generalizing found with
  | nil => exact (Except.ok.inj h).symm
  | cons url urls ih =>
      rcases collectDiscovered_cons h with ⟨-, h⟩ | ⟨⟨hnew, hurl⟩, -⟩
      · refine ih h ?_
        rintro ⟨u, hu, hfresh⟩
        exact hold ⟨u, List.mem_cons_of_mem url hu, hfresh⟩
      · exact absurd ⟨url, List.mem_cons_self, hnew, hurl⟩ hold

theorem length_lt_collectDiscovered (h : collectDiscovered allows cap urls found = .ok found')
    (hfresh : Fresh allows urls found) : found.length < found'.length := by
  induction urls generalizing found with
  | nil =>
      obtain ⟨u, hu, -⟩ := hfresh
      exact absurd hu List.not_mem_nil
  | cons url urls ih =>
      rcases collectDiscovered_cons h with ⟨hknown, h⟩ | ⟨-, ⟨-, rfl⟩ | ⟨-, h⟩⟩
      · obtain ⟨u, hu, hnew, hallowed⟩ := hfresh
        refine ih h ⟨u, (List.mem_cons.mp hu).resolve_left ?_, hnew, hallowed⟩
        rintro rfl
        rcases hknown with hknown | hrefused
        · exact hnew hknown
        · exact absurd (Except.ok.inj (hallowed.symm.trans hrefused)) (by decide)
      · rw [List.length_append, List.length_singleton]
        exact Nat.lt_succ_self _
      · have hlen := (prefix_collectDiscovered h).length_le
        rwa [List.length_append, List.length_singleton] at hlen

/-- The bound holds after a call just when there was room before it or nothing is new. -/
theorem length_collectDiscovered_le_iff
    (h : collectDiscovered allows cap urls found = .ok found') (hfound : found.length ≤ cap) :
    found'.length ≤ cap ↔ found.length < cap ∨ ¬ Fresh allows urls found := by
  constructor
  · intro hbound
    by_contra hcon
    rw [not_or, not_not, not_lt] at hcon
    have hgrown := length_lt_collectDiscovered h hcon.2
    omega
  · rintro (hroom | hold)
    · exact length_collectDiscovered_le h hroom
    · rwa [collectDiscovered_of_not_fresh h hold]

end Collect

/-! ## Merging -/

section Merge

variable {cap : ℕ} {url : String} {urls seeds : List String}

theorem mergeSeeds_of_mem (h : url ∈ seeds) : mergeSeeds cap seeds (url :: urls) =
    if cap ≤ seeds.length then seeds else mergeSeeds cap seeds urls := by
  rw [mergeSeeds, if_pos h]

theorem mergeSeeds_of_notMem (h : url ∉ seeds) : mergeSeeds cap seeds (url :: urls) =
    if cap ≤ seeds.length + 1 then seeds ++ [url] else mergeSeeds cap (seeds ++ [url]) urls := by
  rw [mergeSeeds, if_neg h, List.length_append, List.length_singleton]

/-- New URLs are added behind the seeds, each of them once. -/
theorem exists_added_mergeSeeds (cap : ℕ) (seeds urls : List String) :
    ∃ added, mergeSeeds cap seeds urls = seeds ++ added ∧ added.Nodup ∧
      ∀ u ∈ added, u ∈ urls ∧ u ∉ seeds := by
  induction urls generalizing seeds with
  | nil => exact ⟨[], (List.append_nil seeds).symm, List.nodup_nil, by simp⟩
  | cons url urls ih =>
      by_cases hknown : url ∈ seeds
      · rw [mergeSeeds_of_mem hknown]
        split_ifs
        · exact ⟨[], (List.append_nil seeds).symm, List.nodup_nil, by simp⟩
        · obtain ⟨added, hmerged, hnodup, hadded⟩ := ih seeds
          exact ⟨added, hmerged, hnodup, fun u hu ↦
            ⟨List.mem_cons_of_mem url (hadded u hu).1, (hadded u hu).2⟩⟩
      · rw [mergeSeeds_of_notMem hknown]
        split_ifs
        · exact ⟨[url], rfl, List.nodup_singleton url, by simpa using hknown⟩
        · obtain ⟨added, hmerged, hnodup, hadded⟩ := ih (seeds ++ [url])
          refine ⟨url :: added, by rw [hmerged, List.append_assoc, List.singleton_append],
            List.nodup_cons.mpr ⟨fun hu ↦ (hadded url hu).2 (by simp), hnodup⟩,
            List.forall_mem_cons.mpr ⟨⟨List.mem_cons_self, hknown⟩, fun u hu ↦ ?_⟩⟩
          exact ⟨List.mem_cons_of_mem url (hadded u hu).1,
            fun hseed ↦ (hadded u hu).2 (List.mem_append_left [url] hseed)⟩

theorem length_mergeSeeds_le (h : seeds.length < cap) :
    (mergeSeeds cap seeds urls).length ≤ cap := by
  induction urls generalizing seeds with
  | nil => exact h.le
  | cons url urls ih =>
      by_cases hknown : url ∈ seeds
      · rw [mergeSeeds_of_mem hknown, if_neg (not_le.mpr h)]
        exact ih h
      · rw [mergeSeeds_of_notMem hknown]
        split_ifs with hfull
        · rw [List.length_append, List.length_singleton]
          exact h
        · refine ih ?_
          rw [List.length_append, List.length_singleton]
          exact not_le.mp hfull

/-- A list of seeds that is already full grows just when the first URL is new. -/
theorem length_mergeSeeds_le_iff :
    (mergeSeeds cap seeds (url :: urls)).length ≤ max cap seeds.length ↔
      seeds.length < cap ∨ url ∈ seeds := by
  constructor
  · intro hbound
    by_contra hcon
    rw [not_or, not_lt] at hcon
    obtain ⟨hfull, hnew⟩ := hcon
    rw [mergeSeeds_of_notMem hnew, if_pos (hfull.trans (Nat.le_succ _)), max_eq_right hfull,
      List.length_append, List.length_singleton] at hbound
    exact Nat.not_succ_le_self _ hbound
  · intro h
    by_cases hroom : seeds.length < cap
    · exact (length_mergeSeeds_le hroom).trans (le_max_left _ _)
    · rw [mergeSeeds_of_mem (h.resolve_left hroom), if_pos (not_lt.mp hroom)]
      exact le_max_right _ _

end Merge

/-! ## Runs -/

/-- The seeds start with those of the task, and what is added was discovered. -/
structure Feeds (own discovered seeds : List String) : Prop where
  added : ∃ added, seeds = own ++ added ∧ added.Nodup ∧ ∀ u ∈ added, u ∈ discovered ∧ u ∉ own
  bounded : seeds.length ≤ max maxFedSeeds own.length

variable {σ : Type} (o : Orchestrator σ) (scan : Scan) (target : Target) (scope : ScopeEngine)
  (tasks : List (StageKind × PlannedTask)) (s : σ)

/-- The bounds of the loop over some tasks, after each of them and for each list of seeds. -/
structure WithinBounds : Prop where
  discovered : ∀ before after progress s₁, tasks = before ++ after →
    o.engineLoop scan target scope before s = (.ok progress, s₁) →
      progress.discovered.Nodup ∧ progress.discovered.length ≤ maxDiscovered
  fed : ∀ before task after progress s₁, tasks = before ++ (.audit, task) :: after →
    o.engineLoop scan target scope before s = (.ok progress, s₁) →
      o.registry.adapterFor task.engineId ≠ none → progress.discovered ≠ [] →
        Feeds task.seedUrls progress.discovered
          (mergeSeeds maxFedSeeds task.seedUrls progress.discovered)

/-- The engine of the task reports the observations, and these URLs are known afterwards. -/
def Reports (progress : Progress) (entry : StageKind × PlannedTask) (s : σ)
    (observations : List Observation) (discovered : List String) : Prop :=
  ∃ x covered s₁, o.registry.adapterFor entry.2.engineId = some x ∧
    o.runEngine scan target x entry.2 (seedsOf entry.1 entry.2 progress.discovered)
      progress.covered s = (.ok (observations, covered), s₁) ∧
    Discovers o scope progress observations discovered

/-- At each task there is room for what is new. -/
structure LeavesRoom : Prop where
  discovered : ∀ before entry after progress s₁ observations discovered,
    tasks = before ++ entry :: after →
    o.engineLoop scan target scope before s = (.ok progress, s₁) →
    Reports o scan target scope progress entry s₁ observations discovered →
      progress.discovered.length < maxDiscovered ∨
        ¬ Fresh (fun url ↦ scope.verdict o.env.regex url none) (evidenceUrls observations)
          progress.discovered
  fed : ∀ before task after progress s₁ url urls, tasks = before ++ (.audit, task) :: after →
    o.engineLoop scan target scope before s = (.ok progress, s₁) →
      o.registry.adapterFor task.engineId ≠ none → progress.discovered = url :: urls →
        task.seedUrls.length < maxFedSeeds ∨ url ∈ task.seedUrls

variable {o scan target scope tasks s} {progress progress' : Progress} {s₁ s₂ : σ}
  {entry : StageKind × PlannedTask} {before : List (StageKind × PlannedTask)}

theorem engineLoop_concat :
    o.engineLoop scan target scope (before ++ [entry]) s = (.ok progress', s₂) ↔
      ∃ progress s₁, o.engineLoop scan target scope before s = (.ok progress, s₁) ∧
        o.runTask scan target scope progress entry s₁ = (.ok progress', s₂) := by
  refine Effect.foldl_append_ok_iff.trans (exists₂_congr fun progress s₁ ↦ and_congr_right fun _ ↦ ?_)
  constructor
  · intro h
    obtain ⟨progress₂, s₃, hround, h⟩ := Effect.exists_of_bind_ok h
    obtain ⟨rfl, rfl⟩ := Effect.eq_of_pure h
    exact hround
  · exact fun h ↦ Effect.bind_of_ok h _

/-- A round leaves the list as it is or makes it that of its report. -/
theorem discovered_of_runTask
    (h : o.runTask scan target scope progress entry s₁ = (.ok progress', s₂)) :
    progress'.discovered = progress.discovered ∨
      ∃ observations, Reports o scan target scope progress entry s₁ observations
        progress'.discovered := by
  unfold Orchestrator.runTask at h
  cases hadapter : o.registry.adapterFor entry.2.engineId with
  | none =>
      rw [hadapter] at h
      obtain ⟨rfl, -⟩ := Effect.eq_of_pure h
      exact Or.inl rfl
  | some x =>
      rw [hadapter] at h
      obtain ⟨⟨observations, covered⟩, s₃, hengine, h⟩ := Effect.exists_of_bind_ok h
      obtain ⟨discovered, s₄, hdiscovers, h⟩ := Effect.exists_of_bind_ok h
      obtain ⟨rfl, -⟩ := Effect.eq_of_pure h
      rw [Effect.ofExcept_apply, Prod.mk.injEq] at hdiscovers
      exact Or.inr ⟨observations, x, covered, s₃, hadapter, hengine, hdiscovers.1⟩

theorem runTask_of_reports {observations : List Observation} {discovered : List String}
    (h : Reports o scan target scope progress entry s₁ observations discovered) :
    ∃ progress' s₂, o.runTask scan target scope progress entry s₁ = (.ok progress', s₂) ∧
      progress'.discovered = discovered := by
  obtain ⟨x, covered, s₃, hadapter, hengine, hdiscovers⟩ := h
  unfold Orchestrator.runTask
  rw [hadapter]
  refine ⟨_, s₃, (Effect.bind_of_ok hengine _).trans
    ((Effect.bind_of_ok (Effect.ofExcept_of_ok hdiscovers _) _).trans rfl), rfl⟩

/-- What one task does to the list of discovered URLs. -/
theorem length_discovered_le_iff {observations : List Observation} {discovered : List String}
    (h : Reports o scan target scope progress entry s₁ observations discovered)
    (hbefore : progress.discovered.length ≤ maxDiscovered) :
    discovered.length ≤ maxDiscovered ↔ progress.discovered.length < maxDiscovered ∨
      ¬ Fresh (fun url ↦ scope.verdict o.env.regex url none) (evidenceUrls observations)
        progress.discovered := by
  obtain ⟨x, covered, s₃, -, -, hdiscovers⟩ := h
  exact length_collectDiscovered_le_iff hdiscovers hbefore

/-- What a whole run does, when each of its tasks finds room. -/
theorem LeavesRoom.discovered_le (h : LeavesRoom o scan target scope tasks s)
    {after : List (StageKind × PlannedTask)} (htasks : tasks = before ++ after)
    (hrun : o.engineLoop scan target scope before s = (.ok progress, s₁)) :
    progress.discovered.Nodup ∧ progress.discovered.length ≤ maxDiscovered := by
  induction before using List.reverseRecOn generalizing after progress s₁ with
  | nil =>
      obtain ⟨rfl, -⟩ := Effect.eq_of_pure hrun
      exact ⟨List.nodup_nil, Nat.zero_le _⟩
  | append_singleton before entry ih =>
      rw [List.append_assoc, List.singleton_append] at htasks
      obtain ⟨progress₀, s₀, hbefore, hround⟩ := engineLoop_concat.mp hrun
      obtain ⟨hnodup, hbound⟩ := ih htasks hbefore
      rcases discovered_of_runTask hround with hsame | ⟨observations, hreports⟩
      · rw [hsame]
        exact ⟨hnodup, hbound⟩
      · have hroom := h.discovered before entry after progress₀ s₀ observations _ htasks hbefore
          hreports
        have hlength := (length_discovered_le_iff hreports hbound).mpr hroom
        obtain ⟨x, covered, s₃, -, -, hdiscovers⟩ := hreports
        exact ⟨nodup_collectDiscovered hdiscovers hnodup, hlength⟩

/-- The bounds hold in a run just when each of its tasks finds room for what is new. -/
theorem withinBounds_iff : WithinBounds o scan target scope tasks s ↔
    LeavesRoom o scan target scope tasks s := by
  constructor
  · refine fun h ↦ ⟨?_, ?_⟩
    · intro before entry after progress s₁ observations discovered htasks hbefore hreports
      obtain ⟨progress', s₂, hround, rfl⟩ := runTask_of_reports hreports
      have hafter := engineLoop_concat.mpr ⟨progress, s₁, hbefore, hround⟩
      have hsplit : tasks = (before ++ [entry]) ++ after := by rw [htasks, List.append_cons]
      exact (length_discovered_le_iff hreports (h.discovered _ _ _ _ htasks hbefore).2).mp
        (h.discovered _ _ _ _ hsplit hafter).2
    · intro before task after progress s₁ url urls htasks hbefore hadapter hurls
      have hfed := h.fed before task after progress s₁ htasks hbefore hadapter (by simp [hurls])
      rw [hurls] at hfed
      exact length_mergeSeeds_le_iff.mp hfed.bounded
  · refine fun h ↦ ⟨fun before after progress s₁ htasks hrun ↦ h.discovered_le htasks hrun, ?_⟩
    intro before task after progress s₁ htasks hbefore hadapter hne
    obtain ⟨url, urls, hurls⟩ := List.exists_cons_of_ne_nil hne
    refine ⟨exists_added_mergeSeeds _ _ _, ?_⟩
    rw [hurls]
    exact length_mergeSeeds_le_iff.mpr (h.fed before task after progress s₁ url urls htasks hbefore
      hadapter hurls)

/-! ## Scans -/

/-- A scan that is conducted enters the loop over these tasks in this state. -/
def EntersLoop (o : Orchestrator σ) (scan : Scan) (target : Target) (p : Platform σ)
    (scan₁ : Scan) (scope : ScopeEngine) (tasks : List (StageKind × PlannedTask)) (s : σ) : Prop :=
  ∃ plan p₁, target.isAuthorized (o.env.clock p.world).1 = true ∧
    o.planStage scan target { p with world := (o.env.clock p.world).2 } =
      (.ok (scan₁, scope, plan), p₁) ∧ plan.tasks = tasks ∧ p₁.world = s

/-- The loop of a scan stays within its bounds just when there is room at each task. -/
theorem loop_withinBounds_iff (o : Orchestrator σ) (scan : Scan) (target : Target)
    (p : Platform σ) :
    (∀ scan₁ scope tasks s, EntersLoop o scan target p scan₁ scope tasks s →
        WithinBounds o scan₁ target scope tasks s) ↔
      ∀ scan₁ scope tasks s, EntersLoop o scan target p scan₁ scope tasks s →
        LeavesRoom o scan₁ target scope tasks s :=
  forall₅_congr fun _ _ _ _ _ ↦ withinBounds_iff

/-! ## A target with as many base URLs as seeds are fed -/

theorem zap_isIdentifier : isIdentifier "zap" = true := by decide

theorem empty_summary_ok : "".length ≤ maxSummary := Nat.zero_le _

def crawledObservation : Observation :=
  { demoObservation "information_disclosure" "" .tentative with
    evidence := [⟨.note, "zap", "", none, none, [], [("url", .str "https://app.example/new")],
      zap_isIdentifier, empty_summary_ok⟩] }

def crawlingManifest : EngineManifest :=
  { demoManifest with
    capabilities := [.crawlHttp, .auditPassive]
    capabilities_ne := List.cons_ne_nil _ _ }

def crawlingMetadata : EngineMetadata :=
  { demoMetadata with capabilities := [.crawlHttp, .auditPassive] }

/-- One engine crawls and audits; the plan is that of the planner. -/
def crawlingOrchestrator : Orchestrator Unit where
  env := demoEnvironment .null
  registry :=
    { policy := demoPolicy
      engines := Dict.empty.set "zap"
        { manifest := crawlingManifest
          lock := { version := "2.16.1", license := "Apache-2.0" }
          metadata := crawlingMetadata
          adapter := some (reporting .healthy [crawledObservation])
          problems := []
          notes := [] } }
  risk _ := 25

def crowdedUrls : List String := (List.range 40).map fun n ↦ "https://app.example/" ++ toString n

theorem crowdedUrls_ne : crowdedUrls ≠ [] := List.cons_ne_nil _ _

def crowdedTarget : Target :=
  { demoTarget with baseUrls := crowdedUrls, baseUrls_ne := crowdedUrls_ne }

def crowdedTask (cap : Capability) : PlannedTask :=
  newTask crowdedTarget {} crowdedTarget.baseUrls cap crawlingMetadata

theorem crowdedPlan_tasks :
    (crawlingOrchestrator.plan crowdedTarget demoScan.policy crowdedTarget.baseUrls).tasks =
      [(.discovery, crowdedTask .crawlHttp), (.audit, crowdedTask .auditPassive)] := rfl

theorem crawl_discovers : Discovers crawlingOrchestrator (.ofTarget crowdedTarget 0) {}
    [crawledObservation] ["https://app.example/new"] := by
  unfold Discovers
  decide +kernel

theorem crawlRequest_ok (scan : Scan) : ∃ request, EngineRunRequest.modelValidate "f"
    (requestOf scan crowdedTarget demoMetadata (crowdedTask .crawlHttp) crowdedUrls) =
      .ok request :=
  ⟨_, dif_pos ⟨demoEngineId_ok, List.cons_ne_nil _ _, crowdedUrls_ne, demoRate_ok.1,
    demoConcurrency_ok.1⟩⟩

theorem engineLoop_crawl (scan : Scan) : ∃ progress s₁, crawlingOrchestrator.engineLoop scan
    crowdedTarget (.ofTarget crowdedTarget 0) [(.discovery, crowdedTask .crawlHttp)] () =
      (.ok progress, s₁) ∧ progress.discovered = ["https://app.example/new"] := by
  obtain ⟨request, hrequest⟩ := crawlRequest_ok scan
  have hends : Ends (reporting .healthy [crawledObservation]) request ()
      (.completed [crawledObservation]) () := .completed rfl (by decide) rfl
  exact ⟨_, _, engineLoop_ok_iff.mpr ⟨_, .bound rfl rfl hrequest hends crawl_discovers (.nil _ _)⟩,
    rfl⟩

theorem length_mergeSeeds_crowdedUrls :
    (mergeSeeds maxFedSeeds crowdedUrls ["https://app.example/new"]).length = 41 := by
  decide +kernel

/-- The crawl finds one page, and the audit starts from the base URLs and this page. -/
theorem not_withinBounds_crowdedTarget :
    ¬ ∀ scan₁ scope tasks s,
      EntersLoop crawlingOrchestrator demoScan crowdedTarget demoPlatform scan₁ scope tasks s →
        WithinBounds crawlingOrchestrator scan₁ crowdedTarget scope tasks s := by
  intro h
  have hauthorized : crowdedTarget.isAuthorized 0 = true := demoTarget_authorized
  have hbounds := h _ _ _ _ ⟨_, _, hauthorized, rfl, crowdedPlan_tasks, rfl⟩
  obtain ⟨progress, s₁, hcrawl, hfound⟩ := engineLoop_crawl _
  have hfed := hbounds.fed _ _ [] progress s₁ rfl hcrawl (by decide) (by simp [hfound])
  have hbounded := hfed.bounded
  rw [hfound] at hbounded
  exact absurd (length_mergeSeeds_crowdedUrls ▸ hbounded) (by decide)

end Vantage.Scan
