import Vantage.Findings.Correlation

/-!
# Correlation does not depend on the order of the observations

The merged fields are functions of the set, or of the multiset, of the members
of a group. The class is that of the primary member, which does depend on the
order; but all members share the key, and the hashed text names the class.
-/

namespace Vantage.Findings

open Text
open Grouping hiding sortedSet sortedSet_congr

variable {sha256 : List UInt8 → String} {e : CorrelationEngine} {newId newId' : ℕ → String}
  {observations observations' : List Observation} {o o' : Observation}
  {g g' : Group String Observation}

/-! ## The class of a group -/

def observationText (o : Observation) : String := keyText (classOf o).key o.location

/-- The truncated digest tells the hashed texts of these observations apart. -/
def CollisionFree (sha256 : List UInt8 → String) (observations : List Observation) : Prop :=
  ∀ o ∈ observations, ∀ o' ∈ observations,
    observationKey sha256 o = observationKey sha256 o' → observationText o = observationText o'

theorem cut_keyText {category : String} (h : '|' ∉ category.toList) (loc : Location) :
    (cut '|' (keyText category loc).toList).1 = category.toList := by
  have htext : ∃ rest, (keyText category loc).toList = category.toList ++ '|' :: rest := by
    simp only [keyText, join, String.toList_ofList, List.map_cons, List.intercalate_cons_cons,
      List.append_assoc]
    exact ⟨_, rfl⟩
  obtain ⟨rest, hrest⟩ := htext
  rw [hrest, cut_append h]

/-- No key of the taxonomy contains the separator. -/
theorem classOf_eq_of_text (h : observationText o = observationText o') : classOf o = classOf o' := by
  have hmem : ∀ o, classOf o ∈ Taxonomy.classes := fun o ↦ Taxonomy.classify_mem _ _
  apply Taxonomy.eq_of_key (hmem o) (hmem o')
  apply String.toList_injective
  rw [← cut_keyText (Taxonomy.key_no_bar _ (hmem o)) o.location,
    ← cut_keyText (Taxonomy.key_no_bar _ (hmem o')) o'.location]
  exact congrArg (fun t : String ↦ (cut '|' t.toList).1) h

theorem classOf_eq_of_key (hfree : CollisionFree sha256 observations) (ho : o ∈ observations)
    (ho' : o' ∈ observations) (hkey : observationKey sha256 o = observationKey sha256 o') :
    classOf o = classOf o' := classOf_eq_of_text (hfree o ho o' ho' hkey)

/-! ## Fields of the merge -/

theorem enginesOf_congr
    (h : ∀ s, s ∈ g.members.map Observation.engineId ↔ s ∈ g'.members.map Observation.engineId) :
    enginesOf g = enginesOf g' := sortedSet_congr h

theorem severity_rank_injective : Function.Injective Severity.rank := by
  intro s t
  cases s <;> cases t <;> decide

theorem severityOf_congr
    (h : ∀ s, s ∈ g.members.map Observation.severity ↔ s ∈ g'.members.map Observation.severity) :
    severityOf g = severityOf g' := severity_rank_injective (rank_firstMax_eq Severity.rank h)

theorem confidenceOf_congr (hengines : enginesOf g = enginesOf g')
    (h : ∀ c, c ∈ g.members.map Observation.confidence ↔ c ∈ g'.members.map Observation.confidence) :
    confidenceOf g = confidenceOf g' := by
  have hall : ∀ (g : Group String Observation) (p : Confidence → Bool),
      (g.members.all fun o ↦ p o.confidence) = true ↔
        ∀ c ∈ g.members.map Observation.confidence, p c = true := by
    intro g p
    simp
  have hany : ∀ (g : Group String Observation) (p : Confidence → Bool),
      (g.members.any fun o ↦ p o.confidence) = true ↔
        ∃ c ∈ g.members.map Observation.confidence, p c = true := by
    intro g p
    simp
  have hrefuted : (g.members.all fun o ↦ decide (o.confidence = .falsePositive)) =
      g'.members.all fun o ↦ decide (o.confidence = .falsePositive) := by
    rw [Bool.eq_iff_iff, hall g (· = .falsePositive), hall g' (· = .falsePositive)]
    exact forall_congr' fun c ↦ by rw [h c]
  have hconfirmed : (g.members.any fun o ↦ decide (o.confidence = .confirmed)) =
      g'.members.any fun o ↦ decide (o.confidence = .confirmed) := by
    rw [Bool.eq_iff_iff, hany g (· = .confirmed), hany g' (· = .confirmed)]
    exact exists_congr fun c ↦ by rw [h c]
  rw [confidenceOf, confidenceOf, hrefuted, hconfirmed, hengines]

/-! ## Reordered observations -/

/-- What two findings with one fingerprint agree on when the observations are reordered. -/
structure SameIssue (sha256 : List UInt8 → String) (f f' : UnifiedFinding) : Prop where
  category : f.category = f'.category
  severity : f.severity = f'.severity
  confidence : f.confidence = f'.confidence
  owasp : f.owasp = f'.owasp
  cwe : f.cwe = f'.cwe
  engines : f.engines = f'.engines
  detectors : f.detectors = f'.detectors
  references : f.references = f'.references
  affectedUrls : f.affectedUrls = f'.affectedUrls
  firstSeen : f.firstSeen = f'.firstSeen
  lastSeen : f.lastSeen = f'.lastSeen
  observationIds : f.observationIds.Perm f'.observationIds
  evidence : ∀ d, d ∈ f.evidence.map (digest sha256) ↔ d ∈ f'.evidence.map (digest sha256)

theorem sameIssue_of_perm {id id' : String} (hmembers : g.members.Perm g'.members)
    (hclass : classOf (primaryOf g) = classOf (primaryOf g')) :
    SameIssue sha256 (e.merge sha256 id g) (e.merge sha256 id' g') := by
  have hmap : ∀ {β : Type} (field : Observation → β) (b : β),
      b ∈ g.members.map field ↔ b ∈ g'.members.map field :=
    fun field b ↦ (hmembers.map field).mem_iff
  have hflat : ∀ {β : Type} (field : Observation → List β) (b : β),
      b ∈ g.members.flatMap field ↔ b ∈ g'.members.flatMap field :=
    fun field b ↦ (hmembers.flatMap_right field).mem_iff
  have hengines : enginesOf g = enginesOf g' := enginesOf_congr (hmap _)
  constructor
  case category => exact congrArg Taxonomy.VulnClass.key hclass
  case severity => exact severityOf_congr (hmap _)
  case confidence => exact confidenceOf_congr hengines (hmap _)
  case owasp => exact congrArg Taxonomy.VulnClass.owasp2021 hclass
  case cwe =>
    apply Grouping.sortedSet_congr
    intro c
    rw [List.mem_append, List.mem_append, hflat, hclass]
  case engines => exact hengines
  case detectors => exact sortedSet_congr (hmap _)
  case references => exact sortedSet_congr (hflat _)
  case affectedUrls => exact sortedSet_congr (hmap _)
  case firstSeen => exact foldl_min_congr (hmap Observation.observedAt)
  case lastSeen => exact foldl_max_congr (hmap Observation.observedAt)
  case observationIds => exact hmembers.map Observation.id
  case evidence =>
    intro d
    have hdigest : ∀ g : Group String Observation,
        d ∈ (e.merge sha256 id g).evidence.map (digest sha256) ↔
          d ∈ (g.members.flatMap Observation.evidence).map (digest sha256) :=
      fun g ↦ mem_map_distinctBy
    have hevidence := (hmembers.flatMap_right Observation.evidence).map (digest sha256)
    exact (hdigest g).trans (hevidence.mem_iff.trans mem_map_distinctBy.symm)

theorem mem_fingerprints {fp : String} :
    fp ∈ (e.correlate sha256 newId observations).map UnifiedFinding.fingerprint ↔
      fp ∈ observations.map (observationKey sha256) := by
  have hkeys : ((e.correlate sha256 newId observations).map UnifiedFinding.fingerprint).Perm
      ((groupBy (observationKey sha256) observations).map Group.key) :=
    map_correlate_perm fun id g ↦ rfl
  rw [hkeys.mem_iff, (partitions_groupBy _ _).mem_keys_iff]

/-- Reordering the observations changes no finding in what it says of the issue. -/
theorem correlate_perm (hfree : CollisionFree sha256 observations)
    (hperm : observations.Perm observations') :
    (∀ fp, fp ∈ (e.correlate sha256 newId observations).map UnifiedFinding.fingerprint ↔
      fp ∈ (e.correlate sha256 newId' observations').map UnifiedFinding.fingerprint) ∧
    ∀ f ∈ e.correlate sha256 newId observations, ∀ f' ∈ e.correlate sha256 newId' observations',
      f.fingerprint = f'.fingerprint → SameIssue sha256 f f' := by
  constructor
  · intro fp
    rw [mem_fingerprints, mem_fingerprints]
    exact (hperm.map _).mem_iff
  · intro f hf f' hf' hfp
    obtain ⟨g, hg, id, rfl⟩ := exists_group hf
    obtain ⟨g', hg', id', rfl⟩ := exists_group hf'
    have hkey : g.key = g'.key := hfp
    have hpart := partitions_groupBy (observationKey sha256) observations
    have hpart' := partitions_groupBy (observationKey sha256) observations'
    have hmem := ((hpart.mem_iff hg).mp primaryOf_mem).1
    have hmem' := hperm.mem_iff.mpr ((hpart'.mem_iff hg').mp primaryOf_mem).1
    have hkeys : observationKey sha256 (primaryOf g) = observationKey sha256 (primaryOf g') := by
      rw [key_primaryOf hg, key_primaryOf hg', hkey]
    exact sameIssue_of_perm (hpart.members_perm hpart' hperm hg hg' hkey)
      (classOf_eq_of_key hfree hmem hmem' hkeys)

/-! ## Two reports in both orders -/

theorem demoEngineId_ok : isIdentifier "zap" = true := by decide

/-- A report on the front page of the demo host. -/
def demoReport (id vulnClass : String) (confidence : Confidence) : Observation where
  id := id
  scanId := "s"
  runId := "r"
  engineId := "zap"
  engineVersion := "1"
  detectorId := "detector"
  title := ""
  vulnClass := vulnClass
  severity := .low
  confidence := confidence
  cwe := []
  location := .modelValidate { scheme := "https", host := "app.example", port := 443 }
  description := ""
  remediation := ""
  references := []
  evidence := []
  observedAt := 0
  engineId_ok := demoEngineId_ok

/-- The digests of the two texts that the demo reports are keyed on. -/
def demoSha256 (m : List UInt8) : String :=
  if m = Utf8.encode "xss|app.example|443|/|*|*".toList then
    "3d1d4962b980d3c007e2113099e0178f79342746e0807593cf954b435c4f66ae"
  else if m = Utf8.encode "insecure_cookie|app.example|443|/|*|*".toList then
    "8b3f1b18cbf944d78693fe958bb4336f3e9fc14aeb5d0f547ec092455b9d0b61"
  else ""

def demoEngine : CorrelationEngine := ⟨"t", "s", "g"⟩

def demoReports : List Observation :=
  [demoReport "a" "xss" .firm, demoReport "b" "insecure_cookie" .firm]

theorem collisionFree_demoReports : CollisionFree demoSha256 demoReports := by
  have hxss : observationKey demoSha256 (demoReport "a" "xss" .firm) =
      "3d1d4962b980d3c007e2113099e0178f" := by decide +kernel
  have hcookie : observationKey demoSha256 (demoReport "b" "insecure_cookie" .firm) =
      "8b3f1b18cbf944d78693fe958bb4336f" := by decide +kernel
  intro o ho o' ho' hkey
  simp only [demoReports, List.mem_cons, List.not_mem_nil, or_false] at ho ho'
  rcases ho with rfl | rfl <;> rcases ho' with rfl | rfl
  · rfl
  · rw [hxss, hcookie] at hkey
    exact absurd hkey (by decide)
  · rw [hxss, hcookie] at hkey
    exact absurd hkey (by decide)
  · rfl

theorem correlate_perm_demoReports :
    (∀ fp, fp ∈ (demoEngine.correlate demoSha256 (fun _ ↦ "f") demoReports).map
        UnifiedFinding.fingerprint ↔
      fp ∈ (demoEngine.correlate demoSha256 (fun _ ↦ "f") demoReports.reverse).map
        UnifiedFinding.fingerprint) ∧
    ∀ f ∈ demoEngine.correlate demoSha256 (fun _ ↦ "f") demoReports,
      ∀ f' ∈ demoEngine.correlate demoSha256 (fun _ ↦ "f") demoReports.reverse,
        f.fingerprint = f'.fingerprint → SameIssue demoSha256 f f' :=
  correlate_perm collisionFree_demoReports (List.reverse_perm _).symm

end Vantage.Findings
