import Vantage.Findings.OrderFree
import Vantage.Scan.Validation

/-!
# The validation stage

Every observation is validated in its turn; when that raises, the observation
stays as it is. The stage changes nothing that correlation keys on.
-/

namespace Vantage.Scan

open Findings
open Grouping hiding sortedSet sortedSet_congr

variable {σ : Type}

/-- One round of the loop; an exception is logged and the observation kept. -/
def validateOne (engine : ValidationEngine σ) (utcnow : Effect PyError σ Time) (prober : Prober σ)
    (obs : Observation) : Effect PyError σ Observation :=
  (engine.validate utcnow obs prober).recover fun _ ↦ pure obs

def validateAll (engine : ValidationEngine σ) (utcnow : Effect PyError σ Time) (prober : Prober σ) :
    List Observation → Effect PyError σ (List Observation) :=
  Effect.collect fun obs ↦ do
    let validated ← validateOne engine utcnow prober obs
    pure [validated]

/-- What validation may do to an observation. -/
structure Revised (o o' : Observation) : Prop where
  id : o'.id = o.id
  scanId : o'.scanId = o.scanId
  runId : o'.runId = o.runId
  engineId : o'.engineId = o.engineId
  engineVersion : o'.engineVersion = o.engineVersion
  detectorId : o'.detectorId = o.detectorId
  title : o'.title = o.title
  vulnClass : o'.vulnClass = o.vulnClass
  severity : o'.severity = o.severity
  cwe : o'.cwe = o.cwe
  location : o'.location = o.location
  description : o'.description = o.description
  remediation : o'.remediation = o.remediation
  references : o'.references = o.references
  evidence : ∃ new, o'.evidence = o.evidence ++ new ∧ new.length ≤ 1

variable {engine : ValidationEngine σ} {utcnow : Effect PyError σ Time} {prober : Prober σ}
  {o o' : Observation} {observations observations' : List Observation} {s s' : σ}

theorem Revised.refl (o : Observation) : Revised o o where
  id := rfl
  scanId := rfl
  runId := rfl
  engineId := rfl
  engineVersion := rfl
  detectorId := rfl
  title := rfl
  vulnClass := rfl
  severity := rfl
  cwe := rfl
  location := rfl
  description := rfl
  remediation := rfl
  references := rfl
  evidence := ⟨[], (List.append_nil _).symm, Nat.zero_le 1⟩

theorem revised_revise (o : Observation) (result : ValidationResult) (now : Time) :
    Revised o (revise o result now) where
  id := rfl
  scanId := rfl
  runId := rfl
  engineId := rfl
  engineVersion := rfl
  detectorId := rfl
  title := rfl
  vulnClass := rfl
  severity := rfl
  cwe := rfl
  location := rfl
  description := rfl
  remediation := rfl
  references := rfl
  evidence := by
    refine ⟨result.evidence.toList, rfl, ?_⟩
    cases result.evidence <;> simp

/-! ## The loop -/

/-- Validation answers with the observation itself or with a revision of it. -/
theorem validate_cases (h : engine.validate utcnow o prober s = (.ok o', s')) :
    (o' = o ∧ engine.strategies.find? (·.handles o) = none) ∨
      ∃ strategy result s₁ now, engine.strategies.find? (·.handles o) = some strategy ∧
        strategy.validate o prober s = (.ok result, s₁) ∧ utcnow s₁ = (.ok now, s') ∧
          o' = revise o result now := by
  unfold ValidationEngine.validate at h
  cases hfind : engine.strategies.find? (·.handles o) with
  | none =>
      rw [hfind] at h
      change (Except.ok o, s) = (.ok o', s') at h
      rw [Prod.mk.injEq, Except.ok.injEq] at h
      exact Or.inl ⟨h.1.symm, rfl⟩
  | some strategy =>
      rw [hfind] at h
      obtain ⟨result, s₁, hresult, hrest⟩ := Effect.exists_of_bind_ok h
      obtain ⟨now, s₂, hnow, hpure⟩ := Effect.exists_of_bind_ok hrest
      rw [Effect.pure_apply, Prod.mk.injEq, Except.ok.injEq] at hpure
      obtain ⟨rfl, rfl⟩ := hpure
      exact Or.inr ⟨strategy, result, s₁, now, rfl, hresult, hnow, rfl⟩

/-- A round never raises. -/
theorem validateOne_spec (engine : ValidationEngine σ) (utcnow : Effect PyError σ Time)
    (prober : Prober σ) (o : Observation) (s : σ) :
    ∃ o' s', validateOne engine utcnow prober o s = (.ok o', s') ∧ Revised o o' := by
  rcases hrun : engine.validate utcnow o prober s with ⟨result, s'⟩
  cases result with
  | error e => exact ⟨o, s', Effect.recover_of_error hrun _, Revised.refl o⟩
  | ok o' =>
      refine ⟨o', s', Effect.recover_of_ok hrun _, ?_⟩
      rcases validate_cases hrun with ⟨rfl, -⟩ | ⟨strategy, result, s₁, now, -, -, -, rfl⟩
      · exact Revised.refl o'
      · exact revised_revise o result now

theorem validateAll_cons {rest : List Observation} {s'' : σ}
    (h : validateOne engine utcnow prober o s = (.ok o', s'))
    (hrest : validateAll engine utcnow prober observations s' = (.ok rest, s'')) :
    validateAll engine utcnow prober (o :: observations) s = (.ok (o' :: rest), s'') := by
  have hround : (do
      let validated ← validateOne engine utcnow prober o
      pure [validated] : Effect PyError σ (List Observation)) s = (.ok [o'], s') := by
    rw [Effect.bind_of_ok h, Effect.pure_apply]
  change validateAll engine utcnow prober (o :: observations) s = (.ok ([o'] ++ rest), s'')
  exact Effect.collect_cons_of_ok (by exact hround) hrest

theorem validateAll_spec (engine : ValidationEngine σ) (utcnow : Effect PyError σ Time)
    (prober : Prober σ) (observations : List Observation) (s : σ) :
    ∃ observations' s', validateAll engine utcnow prober observations s = (.ok observations', s') ∧
      List.Forall₂ Revised observations observations' := by
  induction observations generalizing s with
  | nil => exact ⟨[], s, rfl, List.Forall₂.nil⟩
  | cons o observations ih =>
      obtain ⟨o', s', hround, hrevised⟩ := validateOne_spec engine utcnow prober o s
      obtain ⟨rest, s'', hrest, hall⟩ := ih s'
      exact ⟨o' :: rest, s'', validateAll_cons hround hrest, List.Forall₂.cons hrevised hall⟩

/-! ## Correlation before and after validation -/

variable {sha256 : List UInt8 → String} {e : CorrelationEngine} {newId newId' : ℕ → String}

/-- What two findings with one fingerprint agree on before and after validation. -/
structure SameMembers (f f' : UnifiedFinding) : Prop where
  observationIds : f.observationIds = f'.observationIds
  severity : f.severity = f'.severity
  engines : f.engines = f'.engines
  detectors : f.detectors = f'.detectors
  cwe : f.cwe = f'.cwe
  affectedUrls : f.affectedUrls = f'.affectedUrls

theorem Revised.classOf (h : Revised o o') : classOf o' = classOf o := by
  rw [Findings.classOf, Findings.classOf, h.cwe, h.vulnClass]

theorem Revised.observationKey (h : Revised o o') :
    observationKey sha256 o' = observationKey sha256 o := by
  rw [Findings.observationKey, Findings.observationKey, h.classOf, h.location]

theorem Revised.observationText (h : Revised o o') : observationText o' = observationText o := by
  rw [Findings.observationText, Findings.observationText, h.classOf, h.location]

theorem map_eq_of_revised {β : Type} {field : Observation → β}
    (h : List.Forall₂ Revised observations observations')
    (hfield : ∀ o o', Revised o o' → field o' = field o) :
    observations'.map field = observations.map field := by
  induction h with
  | nil => rfl
  | cons hrevised _ ih => rw [List.map_cons, List.map_cons, hfield _ _ hrevised, ih]

theorem filter_revised (h : List.Forall₂ Revised observations observations') (k : String) :
    List.Forall₂ Revised (observations.filter (observationKey sha256 · = k))
      (observations'.filter (observationKey sha256 · = k)) := by
  refine List.rel_filter (fun o o' hrevised ↦ ?_) h
  change decide (observationKey sha256 o = k) = true ↔ decide (observationKey sha256 o' = k) = true
  rw [hrevised.observationKey]

/-- Every validated observation comes from one of the originals. -/
theorem exists_of_mem_revised (h : List.Forall₂ Revised observations observations')
    (ho' : o' ∈ observations') : ∃ o ∈ observations, Revised o o' := by
  induction h with
  | nil => exact absurd ho' List.not_mem_nil
  | cons hrevised _ ih =>
      rcases List.mem_cons.mp ho' with rfl | ho'
      · exact ⟨_, List.mem_cons_self, hrevised⟩
      · obtain ⟨o, ho, hrevised'⟩ := ih ho'
        exact ⟨o, List.mem_cons_of_mem _ ho, hrevised'⟩

variable {g g' : Grouping.Group String Observation} {id id' : String}

theorem sameMembers_merge (hmembers : List.Forall₂ Revised g.members g'.members)
    (hclass : Findings.classOf (primaryOf g) = Findings.classOf (primaryOf g')) :
    SameMembers (e.merge sha256 id g) (e.merge sha256 id' g') := by
  have hmap : ∀ {β : Type} (field : Observation → β),
      (∀ o o', Revised o o' → field o' = field o) → g.members.map field = g'.members.map field :=
    fun field hfield ↦ (map_eq_of_revised hmembers hfield).symm
  have hengines := hmap Observation.engineId fun _ _ h ↦ h.engineId
  have hseverity := hmap Observation.severity fun _ _ h ↦ h.severity
  have hcwe := congrArg List.flatten (hmap Observation.cwe fun _ _ h ↦ h.cwe)
  have hdetectors := hmap (fun o ↦ o.engineId ++ ":" ++ o.detectorId)
    fun _ _ h ↦ by rw [h.engineId, h.detectorId]
  have hurls := hmap affectedUrl fun _ _ h ↦ by rw [affectedUrl, affectedUrl, h.location]
  constructor
  case observationIds => exact hmap Observation.id fun _ _ h ↦ h.id
  case severity => exact severityOf_congr fun _ ↦ by rw [hseverity]
  case engines => exact enginesOf_congr fun _ ↦ by rw [hengines]
  case detectors => exact congrArg Text.sortedSet hdetectors
  case cwe =>
    rw [← List.flatMap_def, ← List.flatMap_def] at hcwe
    apply Grouping.sortedSet_congr
    intro c
    rw [hcwe, hclass]
  case affectedUrls => exact congrArg Text.sortedSet hurls

theorem fingerprints_perm (h : List.Forall₂ Revised observations observations') :
    ((e.correlate sha256 newId observations).map UnifiedFinding.fingerprint).Perm
      ((e.correlate sha256 newId' observations').map UnifiedFinding.fingerprint) := by
  have hkeys : observations'.map (observationKey sha256) = observations.map (observationKey sha256) :=
    map_eq_of_revised h fun _ _ hrevised ↦ hrevised.observationKey
  apply (List.perm_ext_iff_of_nodup nodup_fingerprints nodup_fingerprints).mpr
  intro fp
  rw [mem_fingerprints, mem_fingerprints, hkeys]

theorem sameMembers_of_revised (hfree : CollisionFree sha256 observations)
    (h : List.Forall₂ Revised observations observations') :
    ∀ f ∈ e.correlate sha256 newId observations, ∀ f' ∈ e.correlate sha256 newId' observations',
      f.fingerprint = f'.fingerprint → SameMembers f f' := by
  intro f hf f' hf' hfp
  obtain ⟨g, hg, id, rfl⟩ := exists_group hf
  obtain ⟨g', hg', id', rfl⟩ := exists_group hf'
  have hkey : g.key = g'.key := hfp
  have hpart := partitions_groupBy (observationKey sha256) observations
  have hpart' := partitions_groupBy (observationKey sha256) observations'
  have hmembers : List.Forall₂ Revised g.members g'.members := by
    rw [hpart.members g hg, hpart'.members g' hg', hkey]
    exact filter_revised h g'.key
  have hprimary := ((hpart.mem_iff hg).mp primaryOf_mem).1
  have hprimary' := ((hpart'.mem_iff hg').mp primaryOf_mem).1
  obtain ⟨o, ho, hrevised⟩ := exists_of_mem_revised h hprimary'
  have hkeys : observationKey sha256 (primaryOf g) = observationKey sha256 o := by
    rw [key_primaryOf hg, hkey, ← key_primaryOf hg', hrevised.observationKey]
  have hclass := classOf_eq_of_key hfree hprimary ho hkeys
  exact sameMembers_merge hmembers (hclass.trans hrevised.classOf.symm)

/-- Whatever the prober does, validation keeps every observation in its place,
and correlation finds the same issues with the same members. -/
theorem validation_frame (hfree : CollisionFree sha256 observations) (engine : ValidationEngine σ)
    (utcnow : Effect PyError σ Time) (prober : Prober σ) (s : σ) :
    ∃ observations' s',
      validateAll engine utcnow prober observations s = (.ok observations', s') ∧
      List.Forall₂ Revised observations observations' ∧
      ((e.correlate sha256 newId observations).map UnifiedFinding.fingerprint).Perm
        ((e.correlate sha256 newId' observations').map UnifiedFinding.fingerprint) ∧
      ∀ f ∈ e.correlate sha256 newId observations, ∀ f' ∈ e.correlate sha256 newId' observations',
        f.fingerprint = f'.fingerprint → SameMembers f f' := by
  obtain ⟨observations', s', hrun, hrevised⟩ :=
    validateAll_spec engine utcnow prober observations s
  exact ⟨observations', s', hrun, hrevised, fingerprints_perm hrevised,
    sameMembers_of_revised hfree hrevised⟩

/-- A network on which every probe raises. -/
def raisingProber : Prober Unit := ⟨fun _ ↦ Effect.raise (.other "ConnectError")⟩

theorem validation_frame_demoReports :
    ∃ observations' s',
      validateAll {} (pure 0) raisingProber demoReports () = (.ok observations', s') ∧
      List.Forall₂ Revised demoReports observations' ∧
      ((demoEngine.correlate demoSha256 (fun _ ↦ "f") demoReports).map
          UnifiedFinding.fingerprint).Perm
        ((demoEngine.correlate demoSha256 (fun _ ↦ "f") observations').map
          UnifiedFinding.fingerprint) ∧
      ∀ f ∈ demoEngine.correlate demoSha256 (fun _ ↦ "f") demoReports,
        ∀ f' ∈ demoEngine.correlate demoSha256 (fun _ ↦ "f") observations',
          f.fingerprint = f'.fingerprint → SameMembers f f' :=
  validation_frame collisionFree_demoReports {} (pure 0) raisingProber ()

/-! ## Who confirms -/

/-- One round of a run, with the state in which its probe was sent. -/
structure Turn (σ : Type) where
  before : Observation
  state : σ
  after : Observation

/-- The rounds of a run from one state to another. -/
inductive Turns (engine : ValidationEngine σ) (utcnow : Effect PyError σ Time) (prober : Prober σ) :
    σ → List (Turn σ) → σ → Prop
  | nil (s : σ) : Turns engine utcnow prober s [] s
  | cons {s s' s'' : σ} {o o' : Observation} {turns : List (Turn σ)}
      (hround : validateOne engine utcnow prober o s = (.ok o', s'))
      (hrest : Turns engine utcnow prober s' turns s'') :
      Turns engine utcnow prober s (⟨o, s, o'⟩ :: turns) s''

/-- The configuration strategy handled the observation and returned the verdict CONFIRMED. -/
def Turn.Reverified (prober : Prober σ) (t : Turn σ) : Prop :=
  ConfigReverify.handles t.before = true ∧ ∃ result s',
    ConfigReverify.validate t.before prober t.state = (.ok result, s') ∧ result.verdict = .confirmed

theorem exists_turns (engine : ValidationEngine σ) (utcnow : Effect PyError σ Time)
    (prober : Prober σ) (observations : List Observation) (s : σ) :
    ∃ turns s', Turns engine utcnow prober s turns s' ∧
      turns.map Turn.before = observations ∧
      validateAll engine utcnow prober observations s = (.ok (turns.map Turn.after), s') := by
  induction observations generalizing s with
  | nil => exact ⟨[], s, Turns.nil s, rfl, rfl⟩
  | cons o observations ih =>
      obtain ⟨o', s', hround, -⟩ := validateOne_spec engine utcnow prober o s
      obtain ⟨turns, s'', hturns, hbefore, hrest⟩ := ih s'
      refine ⟨⟨o, s, o'⟩ :: turns, s'', Turns.cons hround hturns, ?_, validateAll_cons hround hrest⟩
      rw [List.map_cons, hbefore]

theorem Turns.forall_round {turns : List (Turn σ)} (h : Turns engine utcnow prober s turns s') :
    ∀ t ∈ turns, ∃ s'', validateOne engine utcnow prober t.before t.state = (.ok t.after, s'') := by
  induction h with
  | nil s => simp
  | cons hround _ ih =>
      intro t ht
      rcases List.mem_cons.mp ht with rfl | ht
      · exact ⟨_, hround⟩
      · exact ih t ht

theorem configReverify_result {result : ValidationResult}
    (h : ConfigReverify.validate o prober s = (.ok result, s')) :
    result.verdict = .confirmed ↔ result.confidence = .confirmed := by
  obtain ⟨resp, s₁, -, hrest⟩ := Effect.exists_of_bind_ok h
  obtain ⟨ev, s₂, -, hpure⟩ := Effect.exists_of_bind_ok hrest
  have hresult := congrArg Prod.fst hpure
  split_ifs at hresult <;> · rw [← Except.ok.inj hresult]; simp

theorem reflection_result {result : ValidationResult}
    (h : ReflectionConsistency.validate o prober s = (.ok result, s')) :
    result.confidence = o.confidence ∨ result.confidence = .firm ∨
      result.confidence = .falsePositive := by
  unfold ReflectionConsistency.validate at h
  split_ifs at h with hmarker
  · have hresult := Except.ok.inj (congrArg Prod.fst h)
    rw [← hresult]
    exact Or.inl rfl
  · obtain ⟨base, s₁, -, hrest⟩ := Effect.exists_of_bind_ok h
    obtain ⟨ev, s₂, -, hpure⟩ := Effect.exists_of_bind_ok hrest
    have hresult := congrArg Prod.fst hpure
    split_ifs at hresult <;> · rw [← Except.ok.inj hresult]; simp

section Reverified

variable {clock : σ → Time × σ} {t : Turn σ}

theorem find_configReverify (h : ConfigReverify.handles o = true) :
    ({} : ValidationEngine σ).strategies.find? (·.handles o) = some ConfigReverify.strategy := by
  simp [ConfigReverify.strategy, h]

theorem find_reflection {strategy : ValidationStrategy σ} (h : ConfigReverify.handles o = false)
    (hfind : ({} : ValidationEngine σ).strategies.find? (·.handles o) = some strategy) :
    strategy = ReflectionConsistency.strategy := by
  have hhandles := List.find?_some hfind
  have hmem := List.mem_of_find?_eq_some hfind
  simp only [List.mem_cons, List.not_mem_nil, or_false] at hmem
  rcases hmem with rfl | rfl
  · exact absurd hhandles (by simp [ConfigReverify.strategy, h])
  · rfl

theorem newConfidence_of_ne {old new : Confidence} (h : old ≠ .confirmed) :
    newConfidence old new = new := if_neg fun hold ↦ h hold.1

/-- With the strategies of the default engine, an observation that was not
confirmed becomes so exactly when the configuration strategy says so. -/
theorem after_confirmed_iff (hraw : t.before.confidence ≠ .confirmed)
    (hround : validateOne ({} : ValidationEngine σ) (Effect.total clock) prober t.before t.state =
      (.ok t.after, s')) :
    t.after.confidence = .confirmed ↔ t.Reverified prober := by
  cases hconfig : ConfigReverify.handles t.before with
  | true =>
      have hvalidate : ({} : ValidationEngine σ).validate (Effect.total clock) t.before prober =
          ConfigReverify.validate t.before prober >>= fun result ↦
            Effect.total clock >>= fun now ↦ pure (revise t.before result now) := by
        unfold ValidationEngine.validate
        rw [find_configReverify hconfig]
        rfl
      rcases hresult : ConfigReverify.validate t.before prober t.state with ⟨result, s₁⟩
      cases result with
      | error e =>
          have hkept := Effect.recover_of_error
            ((congrFun hvalidate t.state).trans (Effect.bind_of_error hresult _))
            fun _ ↦ pure t.before
          have hafter := congrArg Prod.fst (hkept.symm.trans hround)
          rw [← Except.ok.inj hafter]
          refine iff_of_false hraw ?_
          rintro ⟨-, result, s₂, hok, -⟩
          rw [hresult] at hok
          exact absurd (congrArg Prod.fst hok) (by simp)
      | ok result =>
          have hrevise : ({} : ValidationEngine σ).validate (Effect.total clock) t.before prober
              t.state = (.ok (revise t.before result (clock s₁).1), (clock s₁).2) :=
            (congrFun hvalidate t.state).trans (Effect.bind_of_ok hresult _)
          have hrevised := Effect.recover_of_ok hrevise fun _ ↦ pure t.before
          have hafter := congrArg Prod.fst (hrevised.symm.trans hround)
          rw [← Except.ok.inj hafter]
          have hconf : (revise t.before result (clock s₁).1).confidence = result.confidence :=
            newConfidence_of_ne hraw
          rw [hconf, ← configReverify_result hresult]
          constructor
          · exact fun hverdict ↦ ⟨hconfig, result, s₁, hresult, hverdict⟩
          · rintro ⟨-, result', s₂, hok, hverdict⟩
            rw [hresult, Prod.mk.injEq, Except.ok.injEq] at hok
            rw [hok.1]
            exact hverdict
  | false =>
      refine iff_of_false ?_ fun h ↦ absurd h.1 (by simp [hconfig])
      rcases hrun : ({} : ValidationEngine σ).validate (Effect.total clock) t.before prober t.state
        with ⟨result, s₁⟩
      cases result with
      | error e =>
          have hkept := Effect.recover_of_error hrun fun _ ↦ pure t.before
          rw [← Except.ok.inj (congrArg Prod.fst (hkept.symm.trans hround))]
          exact hraw
      | ok o' =>
          have hkept := Effect.recover_of_ok hrun fun _ ↦ pure t.before
          rw [← Except.ok.inj (congrArg Prod.fst (hkept.symm.trans hround))]
          rcases validate_cases hrun with ⟨rfl, -⟩ | ⟨strategy, result, s₂, now, hfind, hres, -, rfl⟩
          · exact hraw
          · obtain rfl := find_reflection hconfig hfind
            have hconf : (revise t.before result now).confidence = result.confidence :=
              newConfidence_of_ne hraw
            rw [hconf]
            rcases reflection_result hres with h | h | h <;> rw [h]
            · exact hraw
            · decide
            · decide

/-- A finding is confirmed exactly when the configuration strategy confirmed
one of its observations. -/
theorem confirmed_iff_reverified {turns : List (Turn σ)}
    (hraw : ∀ t ∈ turns, t.before.confidence ≠ .confirmed)
    (hturns : Turns ({} : ValidationEngine σ) (Effect.total clock) prober s turns s') :
    ∀ f ∈ e.correlate sha256 newId (turns.map Turn.after),
      (f.confidence = .confirmed ↔
        ∃ t ∈ turns, observationKey sha256 t.after = f.fingerprint ∧ t.Reverified prober) := by
  intro f hf
  obtain ⟨g, hg, id, rfl⟩ := exists_group hf
  have hpart := partitions_groupBy (observationKey sha256) (turns.map Turn.after)
  have hconfirmed : ∀ t ∈ turns, t.after.confidence = .confirmed ↔ t.Reverified prober := by
    intro t ht
    obtain ⟨s'', hround⟩ := hturns.forall_round t ht
    exact after_confirmed_iff (hraw t ht) hround
  change confidenceOf g = .confirmed ↔ _
  rw [confidenceOf_eq_confirmed_iff]
  constructor
  · rintro ⟨o, ho, hconf⟩
    obtain ⟨hmem, hkey⟩ := (hpart.mem_iff hg).mp ho
    obtain ⟨t, ht, rfl⟩ := List.mem_map.mp hmem
    exact ⟨t, ht, hkey, (hconfirmed t ht).mp hconf⟩
  · rintro ⟨t, ht, hkey, hreverified⟩
    refine ⟨t.after, (hpart.mem_iff hg).mpr ⟨List.mem_map_of_mem ht, hkey⟩, ?_⟩
    exact (hconfirmed t ht).mpr hreverified

end Reverified

end Vantage.Scan
