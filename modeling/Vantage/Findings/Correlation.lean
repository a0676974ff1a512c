import Mathlib.Data.Prod.Lex
import Vantage.Domain.Finding
import Vantage.Findings.Taxonomy

/-!
# Correlation and de-duplication

Observations with one correlation key become one finding. The key is a digest
of the class, the host, the port, the endpoint template, the method and the
parameter.
-/

namespace Vantage.Findings

open Text
open Grouping hiding sortedSet sortedSet_congr

/-! ## Endpoint templates -/

def isHexDigit (c : Char) : Bool :=
  isAsciiDigit c || ('a' ≤ c && c ≤ 'f') || ('A' ≤ c && c ≤ 'F')

/-- A pattern that ends in `$` also matches in front of a final newline. -/
def matchesToEnd (p : List Char → Bool) (l : List Char) : Bool :=
  p l || (l.getLast? == some '\n' && p l.dropLast)

def isNumeric (l : List Char) : Bool := !l.isEmpty && l.all isDecimal

def isHexLike (l : List Char) : Bool := 8 ≤ l.length && l.all isHexDigit

def isUuid (l : List Char) : Bool :=
  let parts := l.splitOn '-'
  parts.map List.length == [8, 4, 4, 4, 12] && parts.all (·.all isHexDigit)

/-- An identifier-like segment is replaced by a placeholder. -/
def collapse (seg : List Char) : List Char :=
  if seg = [] then []
  else if matchesToEnd isUuid seg then "{uuid}".toList
  else if matchesToEnd isNumeric seg then "{id}".toList
  else if matchesToEnd isHexLike seg then "{hash}".toList
  else seg

def normalizeEndpoint (path : String) : String :=
  let norm := ['/'].intercalate ((path.toList.splitOn '/').map collapse)
  if norm = [] then "/" else String.ofList norm

example : normalizeEndpoint "/users/17/files/deadbeef01" = "/users/{id}/files/{hash}" := by
  decide +kernel

theorem collapse_collapse (seg : List Char) : collapse (collapse seg) = collapse seg := by
  have huuid : collapse "{uuid}".toList = "{uuid}".toList := by decide +kernel
  have hid : collapse "{id}".toList = "{id}".toList := by decide +kernel
  have hhash : collapse "{hash}".toList = "{hash}".toList := by decide +kernel
  have hcases : collapse seg = seg ∨ collapse seg ∈ ["{uuid}".toList, "{id}".toList,
      "{hash}".toList] := by
    unfold collapse
    split_ifs with hempty <;> simp [hempty]
  rcases hcases with hself | hplaceholder
  · rw [hself, hself]
  · simp only [List.mem_cons, List.not_mem_nil, or_false] at hplaceholder
    rcases hplaceholder with h | h | h
    · rw [h, huuid]
    · rw [h, hid]
    · rw [h, hhash]

theorem slash_notMem_collapse {seg : List Char} (h : '/' ∉ seg) : '/' ∉ collapse seg := by
  unfold collapse
  split_ifs
  · exact List.not_mem_nil
  · decide
  · decide
  · decide
  · exact h

theorem slash_notMem_segment {l seg : List Char} (h : seg ∈ l.splitOn '/') : '/' ∉ seg := by
  induction l generalizing seg with
  | nil =>
      rw [List.splitOn_nil, List.mem_singleton] at h
      simp [h]
  | cons c l ih =>
      rw [List.splitOn_cons_eq_if_modifyHead] at h
      split_ifs at h with hc
      · rcases List.mem_cons.mp h with rfl | h
        · exact List.not_mem_nil
        · exact ih h
      · cases hsplit : l.splitOn '/' with
        | nil => exact absurd hsplit (List.splitOn_ne_nil '/' l)
        | cons first rest =>
            rw [hsplit] at h ih
            rcases List.mem_cons.mp h with rfl | h
            · have hne : '/' ≠ c := fun heq ↦ hc (beq_iff_eq.mpr heq.symm)
              simpa [hne] using ih List.mem_cons_self
            · exact ih (List.mem_cons_of_mem _ h)

/-- Placeholders are templates already. -/
theorem normalizeEndpoint_idempotent (path : String) :
    normalizeEndpoint (normalizeEndpoint path) = normalizeEndpoint path := by
  have hroot : normalizeEndpoint "/" = "/" := by decide +kernel
  by_cases hnorm : ['/'].intercalate ((path.toList.splitOn '/').map collapse) = []
  · have hpath : normalizeEndpoint path = "/" := if_pos hnorm
    rw [hpath, hroot]
  · have hpath : normalizeEndpoint path =
        String.ofList (['/'].intercalate ((path.toList.splitOn '/').map collapse)) := if_neg hnorm
    have hsplit : (normalizeEndpoint path).toList.splitOn '/' =
        (path.toList.splitOn '/').map collapse := by
      rw [hpath, String.toList_ofList]
      apply List.splitOn_intercalate
      · intro seg hseg
        obtain ⟨seg', hseg', rfl⟩ := List.mem_map.mp hseg
        exact slash_notMem_collapse (slash_notMem_segment hseg')
      · simp [List.splitOn_ne_nil]
    have hcollapse : ((path.toList.splitOn '/').map collapse).map collapse =
        (path.toList.splitOn '/').map collapse := by
      rw [List.map_map]
      exact List.map_congr_left fun seg _ ↦ collapse_collapse seg
    rw [normalizeEndpoint, hsplit, hcollapse, if_neg hnorm, hpath]

theorem normalizeEndpoint_ne_empty (path : String) : normalizeEndpoint path ≠ "" := by
  by_cases hnorm : ['/'].intercalate ((path.toList.splitOn '/').map collapse) = []
  · have hroot : normalizeEndpoint path = "/" := if_pos hnorm
    rw [hroot]
    decide
  · have hpath : normalizeEndpoint path =
        String.ofList (['/'].intercalate ((path.toList.splitOn '/').map collapse)) := if_neg hnorm
    rw [hpath, ne_eq, ← String.toList_eq_nil_iff, String.toList_ofList]
    exact hnorm

/-! ## Digests -/

variable (sha256 : List UInt8 → String)

/-- The text that is hashed to the correlation key. -/
def keyText (category : String) (loc : Location) : String :=
  join "|" [category, loc.host, toString loc.port, normalizeEndpoint loc.path,
    orElse loc.method "*", orElse loc.parameter "*"]

def fingerprint (category : String) (loc : Location) : String :=
  String.ofList ((sha256 (Utf8.encode (keyText category loc).toList)).toList.take 32)

/-- `Evidence.digest`; an absent method or URL is printed as `None`. -/
def digest (ev : Evidence) : String :=
  let request := match ev.request with
    | none => []
    | some m => (m.method.getD "None" ++ " " ++ m.url.getD "None").toList
  let status := match ev.response.bind HttpMessage.status with
    | none => []
    | some code => (toString code).toList
  sha256 (Utf8.encode (ev.kind.value.toList ++ ev.summary.toList ++
    (sorted ev.matched).flatMap String.toList ++ request ++ status))

def classOf (o : Observation) : Taxonomy.VulnClass := Taxonomy.classify o.cwe o.vulnClass

/-- The correlation key of an observation. -/
def observationKey (o : Observation) : String := fingerprint sha256 (classOf o).key o.location

/-! ## Merging -/

def confidenceFromEngines (engines : List String) (anyConfirmed : Bool) : Confidence :=
  if anyConfirmed then .confirmed
  else if 2 ≤ engines.length then .firm
  else .tentative

def observationRank (o : Observation) : ℕ ×ₗ ℤ := toLex (o.severity.rank, o.confidence.rank)

def primaryOf (g : Group String Observation) : Observation := firstMax observationRank g.head g.tail

def enginesOf (g : Group String Observation) : List String :=
  sortedSet (g.members.map Observation.engineId)

def severityOf (g : Group String Observation) : Severity :=
  firstMax Severity.rank g.head.severity (g.tail.map Observation.severity)

def confidenceOf (g : Group String Observation) : Confidence :=
  if g.members.all (·.confidence = .falsePositive) then .falsePositive
  else confidenceFromEngines (enginesOf g) (g.members.any (·.confidence = .confirmed))

def affectedUrl (o : Observation) : String :=
  o.location.scheme ++ "://" ++ o.location.host ++ ":" ++ toString o.location.port ++
    o.location.path

def findingRank (f : UnifiedFinding) : ℕ ×ₗ ℤ := toLex (f.severity.rank, f.confidence.rank)

structure CorrelationEngine where
  tenantId : String
  scanId : String
  targetId : String

namespace CorrelationEngine

variable (e : CorrelationEngine)

def merge (id : String) (g : Group String Observation) : UnifiedFinding :=
  let primary := primaryOf g
  let vc := classOf primary
  { id := id
    tenantId := e.tenantId
    scanId := e.scanId
    targetId := e.targetId
    fingerprint := g.key
    title := if primary.title = "" then vc.title else primary.title
    category := vc.key
    severity := severityOf g
    confidence := confidenceOf g
    riskScore := 0
    cwe := Grouping.sortedSet (g.members.flatMap Observation.cwe ++ vc.cwes)
    owasp := vc.owasp2021
    host := primary.location.host
    port := primary.location.port
    endpoint := normalizeEndpoint primary.location.path
    method := primary.location.method
    parameter := primary.location.parameter
    affectedUrls := sortedSet (g.members.map affectedUrl)
    description := primary.description
    remediation := primary.remediation
    references := sortedSet (g.members.flatMap Observation.references)
    engines := enginesOf g
    detectors := sortedSet (g.members.map fun o ↦ o.engineId ++ ":" ++ o.detectorId)
    observationIds := g.members.map Observation.id
    evidence := distinctBy (digest sha256) (g.members.flatMap Observation.evidence)
    firstSeen := (g.tail.map Observation.observedAt).foldl min g.head.observedAt
    lastSeen := (g.tail.map Observation.observedAt).foldl max g.head.observedAt }

/-- The findings before they are ranked; `newId` gives the identifiers in the
order in which they are drawn. -/
def mergeAll (newId : ℕ → String) (observations : List Observation) : List UnifiedFinding :=
  (groupBy (observationKey sha256) observations).mapIdx fun i g ↦ e.merge sha256 (newId i) g

/-- The sort is stable, and keeps the order of equals when it is reversed. -/
def correlate (newId : ℕ → String) (observations : List Observation) : List UnifiedFinding :=
  (e.mergeAll sha256 newId observations).insertionSort fun f g ↦ findingRank g ≤ findingRank f

end CorrelationEngine

/-! ## The confidence of a group -/

theorem confidenceOf_eq_confirmed_iff {g : Group String Observation} :
    confidenceOf g = .confirmed ↔ ∃ o ∈ g.members, o.confidence = .confirmed := by
  unfold confidenceOf confidenceFromEngines
  constructor
  · intro h
    split_ifs at h with hall hany
    simpa using hany
  · rintro ⟨o, ho, hconf⟩
    have hall : ¬ (g.members.all (·.confidence = .falsePositive)) = true := by
      intro hall
      have hfalse := List.all_eq_true.mp hall o ho
      simp [hconf] at hfalse
    have hany : (g.members.any (·.confidence = .confirmed)) = true :=
      List.any_eq_true.mpr ⟨o, ho, by simp [hconf]⟩
    rw [if_neg hall, if_pos hany]

theorem confidenceOf_ne_falsePositive_iff {g : Group String Observation} :
    confidenceOf g ≠ .falsePositive ↔ ∃ o ∈ g.members, o.confidence ≠ .falsePositive := by
  have hengines : ∀ b, confidenceFromEngines (enginesOf g) b ≠ .falsePositive := by
    intro b
    unfold confidenceFromEngines
    split_ifs <;> decide
  unfold confidenceOf
  split_ifs with hall
  · simp only [ne_eq, not_true_eq_false, false_iff, not_exists, not_and, not_not]
    intro o ho
    simpa using List.all_eq_true.mp hall o ho
  · refine iff_of_true (hengines _) ?_
    simpa using hall

/-- Firm is what several engines make of a group. -/
theorem two_le_engines_of_firm {g : Group String Observation} (h : confidenceOf g = .firm) :
    2 ≤ (enginesOf g).length := by
  unfold confidenceOf confidenceFromEngines at h
  split_ifs at h with hall hany hengines
  exact hengines

theorem two_le_enginesOf_iff {g : Group String Observation} : 2 ≤ (enginesOf g).length ↔
    ∃ o ∈ g.members, ∃ o' ∈ g.members, o.engineId ≠ o'.engineId := by
  refine Grouping.two_le_length_sortedSet_iff.trans ?_
  simp

/-! ## What the findings keep of the observations -/

variable {sha256} {e : CorrelationEngine} {newId : ℕ → String} {observations : List Observation}
  {g : Group String Observation} {f : UnifiedFinding}

theorem primaryOf_mem : primaryOf g ∈ g.members := firstMax_mem _ _ _

/-- A field of the findings that is determined by the groups, up to order. -/
theorem map_correlate_perm {β : Type} {field : UnifiedFinding → β}
    {value : Group String Observation → β}
    (h : ∀ id g, field (e.merge sha256 id g) = value g) :
    ((e.correlate sha256 newId observations).map field).Perm
      ((groupBy (observationKey sha256) observations).map value) := by
  have hmap : (e.mergeAll sha256 newId observations).map field =
      (groupBy (observationKey sha256) observations).map value := by
    unfold CorrelationEngine.mergeAll
    apply List.ext_getElem?
    intro i
    rw [List.getElem?_map, List.getElem?_mapIdx, List.getElem?_map, Option.map_map]
    exact Option.map_congr fun g _ ↦ h (newId i) g
  rw [← hmap]
  exact (List.perm_insertionSort _ _).map field

/-- Every finding is the merge of a group. -/
theorem exists_group (hf : f ∈ e.correlate sha256 newId observations) :
    ∃ g ∈ groupBy (observationKey sha256) observations, ∃ id, f = e.merge sha256 id g := by
  have hmerged : f ∈ e.mergeAll sha256 newId observations := (List.mem_insertionSort _).mp hf
  obtain ⟨i, hi, rfl⟩ := List.mem_mapIdx.mp hmerged
  exact ⟨_, List.getElem_mem hi, newId i, rfl⟩

/-- All members of a group have its key, the primary one among them. -/
theorem key_primaryOf (hg : g ∈ groupBy (observationKey sha256) observations) :
    observationKey sha256 (primaryOf g) = g.key :=
  (partitions_groupBy _ _).key_of_mem hg primaryOf_mem

theorem observationIds_perm :
    ((e.correlate sha256 newId observations).flatMap UnifiedFinding.observationIds).Perm
      (observations.map Observation.id) := by
  have hids : ((e.correlate sha256 newId observations).map UnifiedFinding.observationIds).Perm
      ((groupBy (observationKey sha256) observations).map fun g ↦ g.members.map Observation.id) :=
    map_correlate_perm fun id g ↦ rfl
  have hmembers := flatMap_groupBy_perm (observationKey sha256) observations
  have hflat := hids.flatten
  rw [← List.flatMap_def, ← List.flatMap_def, ← List.map_flatMap] at hflat
  exact hflat.trans (hmembers.map Observation.id)

theorem nodup_fingerprints :
    ((e.correlate sha256 newId observations).map UnifiedFinding.fingerprint).Nodup := by
  have hkeys : ((e.correlate sha256 newId observations).map UnifiedFinding.fingerprint).Perm
      ((groupBy (observationKey sha256) observations).map Group.key) :=
    map_correlate_perm fun id g ↦ rfl
  exact hkeys.nodup_iff.mpr (partitions_groupBy _ _).nodup

theorem pairwise_rank : (e.correlate sha256 newId observations).Pairwise
    fun f f' ↦ findingRank f' ≤ findingRank f := by
  have htotal : Std.Total fun f f' : UnifiedFinding ↦ findingRank f' ≤ findingRank f :=
    ⟨fun f f' ↦ le_total _ _⟩
  have htrans : IsTrans UnifiedFinding fun f f' ↦ findingRank f' ≤ findingRank f :=
    ⟨fun f f' f'' h h' ↦ h'.trans h⟩
  exact List.pairwise_insertionSort _ _

/-- The location that a finding displays has the key of its group. -/
theorem fingerprint_displayed (scheme : String) (o : Observation) :
    fingerprint sha256 (classOf o).key (.modelValidate
      { scheme := scheme
        host := o.location.host
        port := o.location.port
        path := normalizeEndpoint o.location.path
        method := o.location.method
        parameter := o.location.parameter }) = observationKey sha256 o := by
  simp only [observationKey, fingerprint, keyText, Location.modelValidate,
    Location.locationHost_host, Location.map_upper_method, normalizeEndpoint_idempotent]

/-- Nothing is lost, duplicated or mislabelled. -/
theorem correlate_faithful (e : CorrelationEngine) (newId : ℕ → String)
    (observations : List Observation) :
    ((e.correlate sha256 newId observations).flatMap UnifiedFinding.observationIds).Perm
        (observations.map Observation.id) ∧
      ((e.correlate sha256 newId observations).map UnifiedFinding.fingerprint).Nodup ∧
      (e.correlate sha256 newId observations).Pairwise
        (fun f f' ↦ findingRank f' ≤ findingRank f) ∧
      ∀ f ∈ e.correlate sha256 newId observations, ∀ scheme,
        f.fingerprint = fingerprint sha256 f.category (.modelValidate
          { scheme := scheme
            host := f.host
            port := f.port
            path := f.endpoint
            method := f.method
            parameter := f.parameter }) := by
  refine ⟨observationIds_perm, nodup_fingerprints, pairwise_rank, ?_⟩
  intro f hf scheme
  obtain ⟨g, hg, id, rfl⟩ := exists_group hf
  rw [CorrelationEngine.merge, ← key_primaryOf hg]
  exact (fingerprint_displayed scheme (primaryOf g)).symm

end Vantage.Findings
