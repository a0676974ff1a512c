import Vantage.Lib.Ranking
import Vantage.Scan.Footprint

/-!
# The dates of findings

A scan stores a finding with the dates of its observations, unless the previous
completed scan of the target has it: then the first date is that scan's.
-/

namespace Vantage.Scan

open Engines Findings Persistence Scope Ai

variable {σ : Type} {time : σ → Time} {o : Orchestrator σ} {scan scan' : Scan}
  {target : Target} {p p' : Platform σ} {previous current findings : List UnifiedFinding}
  {f f' : UnifiedFinding} {now : Time}

/-! ## The dates of a finding -/

/-- The times of the observations with a fingerprint. -/
def observationTimes (sha256 : List UInt8 → String) (observations : List Observation)
    (fingerprint : String) : Set Time :=
  {t | ∃ obs ∈ observations, observationKey sha256 obs = fingerprint ∧ obs.observedAt = t}

theorem isLeast_foldl_min (t : Time) (l : List Time) : IsLeast {x | x ∈ t :: l} (l.foldl min t) :=
  have hleast := List.min?_eq_some_iff.mp (@List.min?_cons' _ t _ l)
  ⟨hleast.1, hleast.2⟩

section Correlate

variable {sha256 : List UInt8 → String} {e : CorrelationEngine} {newId : ℕ → String}
  {observations : List Observation}

theorem firstSeen_correlate (hf : f ∈ e.correlate sha256 newId observations) :
    IsLeast (observationTimes sha256 observations f.fingerprint) f.firstSeen := by
  obtain ⟨g, hg, id, rfl⟩ := exists_group hf
  have hmembers : ∀ obs, obs ∈ g.members ↔
      obs ∈ observations ∧ observationKey sha256 obs = g.key := fun obs ↦
    (Grouping.partitions_groupBy (observationKey sha256) observations).mem_iff hg
  have hleast := isLeast_foldl_min g.head.observedAt (g.tail.map Observation.observedAt)
  have htimes : observationTimes sha256 observations g.key =
      {t | t ∈ g.head.observedAt :: g.tail.map Observation.observedAt} := by
    ext t
    rw [← List.map_cons]
    simp only [observationTimes, Set.mem_ofPred_eq, List.mem_map]
    exact exists_congr fun obs ↦ by rw [← and_assoc, ← hmembers]; rfl
  change IsLeast (observationTimes sha256 observations g.key) _
  rw [htimes]
  exact hleast

theorem firstSeen_le_lastSeen (hf : f ∈ e.correlate sha256 newId observations) :
    f.firstSeen ≤ f.lastSeen := by
  obtain ⟨g, hg, id, rfl⟩ := exists_group hf
  have hleast := isLeast_foldl_min g.head.observedAt (g.tail.map Observation.observedAt)
  have hgreatest := List.max?_eq_some_iff.mp
    (@List.max?_cons' _ g.head.observedAt _ (g.tail.map Observation.observedAt))
  exact (hleast.2 List.mem_cons_self).trans (hgreatest.2 _ List.mem_cons_self)

end Correlate

/-! ## Carrying dates forward -/

/-- The finding has the dates of its observations, or was seen before. -/
inductive Carried (previous : List UnifiedFinding) (now : Time) (f f' : UnifiedFinding) : Prop
  | fresh (hnew : ∀ old ∈ previous, old.fingerprint ≠ f.fingerprint)
      (hfirst : f'.firstSeen = f.firstSeen) (hlast : f'.lastSeen = f.lastSeen)
  | known {old : UnifiedFinding} (hold : old ∈ previous) (hkey : old.fingerprint = f.fingerprint)
      (hfirst : f'.firstSeen = old.firstSeen) (hlast : now ≤ f'.lastSeen)

/-- What is kept of a finding while its dates are set. -/
structure Redated (previous : List UnifiedFinding) (now : Time) (f f' : UnifiedFinding) : Prop where
  scanId : f'.scanId = f.scanId
  fingerprint : f'.fingerprint = f.fingerprint
  dates : Carried previous now f f'

theorem redated_self (h : ∀ old ∈ previous, old.fingerprint ≠ f.fingerprint) :
    Redated previous now f f := ⟨rfl, rfl, .fresh h rfl rfl⟩

theorem redated_mergeAcrossScans (hclock : Clocked time o.env.clock) {w w' : σ}
    (hnow : now ≤ time w) (hrun : o.mergeAcrossScans previous current w = (.ok findings, w')) :
    List.Forall₂ (Redated previous now) current findings := by
  unfold Orchestrator.mergeAcrossScans at hrun
  induction current generalizing findings w w' with
  | nil =>
      obtain ⟨rfl, -⟩ := Effect.eq_of_pure hrun
      exact .nil
  | cons f current ih =>
      obtain ⟨first, w₁, hfirst, hrun⟩ := Effect.exists_of_bind_ok hrun
      obtain ⟨rest, w₂, hrest, hrun⟩ := Effect.exists_of_bind_ok hrun
      obtain ⟨rfl, -⟩ := Effect.eq_of_pure hrun
      cases hold : previous.reverse.find? (·.fingerprint = f.fingerprint) with
      | none =>
          simp only [hold] at hfirst
          obtain ⟨rfl, rfl⟩ := Effect.eq_of_pure hfirst
          have hnew : ∀ old ∈ previous, old.fingerprint ≠ f.fingerprint := fun old hmem hkey ↦
            List.find?_eq_none.mp hold old (List.mem_reverse.mpr hmem) (decide_eq_true hkey)
          exact .cons (redated_self hnew) (ih hnow hrest)
      | some old =>
          simp only [hold] at hfirst
          obtain ⟨read, w₃, hclockRun, hfirst⟩ := Effect.exists_of_bind_ok hfirst
          obtain ⟨rfl, rfl⟩ := Effect.eq_of_pure hfirst
          obtain ⟨rfl, rfl⟩ := Effect.ok_unique (Effect.total_apply o.env.clock w) hclockRun
          have hmem : old ∈ previous := List.mem_reverse.mp (List.mem_of_find?_eq_some hold)
          have hkey : old.fingerprint = f.fingerprint := by simpa using List.find?_some hold
          refine .cons ⟨rfl, rfl, .known hmem hkey rfl ?_⟩ (ih ?_ hrest)
          · exact hnow.trans (hclock.reads w)
          · exact hnow.trans (hclock.rises w)

/-- Completed scans of the target other than the scan itself. -/
structure Candidate (db : Database) (scan : Scan) (target : Target) (row : ScanRow) : Prop where
  stored : row ∈ db.scans
  tenantId : row.tenantId = scan.tenantId
  completed : row.state = .completed
  targetId : row.payload.targetId = target.id
  other : row.payload.id ≠ scan.id

/-- The findings of the latest completed scan of the target; without one there are none. -/
inductive Previous (db : Database) (scan : Scan) (target : Target) : List UnifiedFinding → Prop
  | none (h : ∀ row, ¬ Candidate db scan target row) : Previous db scan target []
  | latest {row : ScanRow} (h : Candidate db scan target row)
      (hlatest : ∀ row', Candidate db scan target row' → row'.createdAt ≤ row.createdAt) :
      Previous db scan target (db.findingsForScan row.payload.id)

/-- The rows of the completed scans of a tenant, the latest first. -/
def completedRows (db : Database) (tenantId : String) : List ScanRow :=
  Ranking.ranked ScanRow.createdAt
    (db.scans.filter fun row ↦ row.tenantId = tenantId ∧ ∀ st ∈ some ScanState.completed,
      row.state = st)

theorem mem_candidates {db : Database} {row : ScanRow} :
    (row ∈ (completedRows db scan.tenantId).filter fun row ↦
      row.payload.targetId = target.id ∧ row.payload.id ≠ scan.id) ↔
        Candidate db scan target row := by
  rw [List.mem_filter, completedRows, Ranking.ranked, List.mem_insertionSort, List.mem_filter,
    decide_eq_true_iff, decide_eq_true_iff]
  constructor
  · rintro ⟨⟨hstored, htenant, hstate⟩, htarget, hother⟩
    exact ⟨hstored, htenant, hstate _ rfl, htarget, hother⟩
  · intro h
    refine ⟨⟨h.stored, h.tenantId, ?_⟩, h.targetId, h.other⟩
    intro st hst
    rw [← Option.some.inj hst]
    exact h.completed

/-- The query of the orchestrator, on rows. -/
theorem query_eq (db : Database) (scan : Scan) (target : Target) :
    (db.listScans scan.tenantId (some .completed)).filter
        (fun s ↦ s.targetId = target.id ∧ s.id ≠ scan.id) =
      ((completedRows db scan.tenantId).filter fun row ↦
        row.payload.targetId = target.id ∧ row.payload.id ≠ scan.id).map ScanRow.payload :=
  List.filter_map ..

theorem previous_of_query_nil {db : Database}
    (h : (db.listScans scan.tenantId (some .completed)).filter
      (fun s ↦ s.targetId = target.id ∧ s.id ≠ scan.id) = []) :
    Previous db scan target [] := by
  rw [query_eq, List.map_eq_nil_iff] at h
  refine .none fun row hrow ↦ ?_
  have hmem := mem_candidates.mpr hrow
  rw [h] at hmem
  exact absurd hmem List.not_mem_nil

/-- The head of the query is the latest candidate. -/
theorem previous_of_query_cons {db : Database} {last : Scan} {rest : List Scan}
    (h : (db.listScans scan.tenantId (some .completed)).filter
      (fun s ↦ s.targetId = target.id ∧ s.id ≠ scan.id) = last :: rest) :
    Previous db scan target (db.findingsForScan last.id) := by
  rw [query_eq] at h
  obtain ⟨row, rows, hrows, rfl, -⟩ := List.map_eq_cons_iff.mp h
  have hsorted : ((completedRows db scan.tenantId).filter fun row ↦
      row.payload.targetId = target.id ∧ row.payload.id ≠ scan.id).Pairwise
        fun row row' ↦ row'.createdAt ≤ row.createdAt :=
    (Ranking.pairwise_ranked ScanRow.createdAt _).filter _
  rw [hrows, List.pairwise_cons] at hsorted
  have hrow : Candidate db scan target row := mem_candidates.mp (hrows ▸ List.mem_cons_self)
  refine .latest hrow fun row' hrow' ↦ ?_
  have hmem := mem_candidates.mpr hrow'
  rw [hrows] at hmem
  rcases List.mem_cons.mp hmem with rfl | hmem
  · exact le_rfl
  · exact hsorted.1 row' hmem

theorem redated_mergeHistory (hclock : Clocked time o.env.clock)
    (hrun : o.mergeHistory scan target current p = (.ok findings, p')) :
    ∃ previous, Previous p.db scan target previous ∧
      List.Forall₂ (Redated previous (time p.world)) current findings := by
  obtain ⟨p₁, p₂, hget, hrun⟩ := Effect.exists_of_bind_ok hrun
  obtain ⟨rfl, rfl⟩ := Effect.ok_unique (Effect.get_apply p) hget
  cases hquery : (p.db.listScans scan.tenantId (some .completed)).filter
      (fun s ↦ s.targetId = target.id ∧ s.id ≠ scan.id) with
  | nil =>
      simp only [hquery] at hrun
      obtain ⟨rfl, -⟩ := Effect.eq_of_pure hrun
      refine ⟨[], previous_of_query_nil hquery, List.forall₂_same.mpr fun f _ ↦ redated_self ?_⟩
      exact fun old hold ↦ absurd hold List.not_mem_nil
  | cons last rest =>
      simp only [hquery] at hrun
      exact ⟨_, previous_of_query_cons hquery,
        redated_mergeAcrossScans hclock le_rfl (exists_of_outside hrun).1⟩

/-! ## The findings of one scan -/

/-- A finding that a scan stores has the dates of its observations, or the first
date that the previous scan stored. -/
inductive Dating (times : String → Set Time) (previous : List UnifiedFinding) (start finish : Time)
    (f : UnifiedFinding) : Prop
  | first (hnew : ∀ old ∈ previous, old.fingerprint ≠ f.fingerprint)
      (hleast : IsLeast (times f.fingerprint) f.firstSeen) (hle : f.firstSeen ≤ f.lastSeen)
      (hpast : f.firstSeen ≤ finish)
  | again {old : UnifiedFinding} (hold : old ∈ previous) (hkey : old.fingerprint = f.fingerprint)
      (hfirst : f.firstSeen = old.firstSeen) (hlast : start ≤ f.lastSeen)

theorem Dating.mono {times : String → Set Time} {start start' finish finish' : Time}
    (h : Dating times previous start finish f) (hstart : start' ≤ start)
    (hfinish : finish ≤ finish') : Dating times previous start' finish' f := by
  cases h with
  | first hnew hleast hle hpast => exact .first hnew hleast hle (hpast.trans hfinish)
  | again hold hkey hfirst hlast => exact .again hold hkey hfirst (hstart.trans hlast)

/-- A finding of correlation is dated when its own dates are kept or replaced. -/
theorem dating_of_redated {sha256 : List UInt8 → String} {e : CorrelationEngine}
    {newId : ℕ → String} {observations : List Observation} {w : σ}
    (hf : f ∈ e.correlate sha256 newId observations) (hdated : Dated time observations w)
    (h : Redated previous now f f') (score : ℚ) :
    Dating (observationTimes sha256 observations) previous now (time w)
      { f' with riskScore := score } := by
  have hleast := firstSeen_correlate hf
  obtain ⟨obs, hobs, -, hwhen⟩ := hleast.1
  cases h.dates with
  | fresh hnew hfirst hlast =>
      refine .first (h.fingerprint ▸ hnew) ?_ ?_ ?_
      · change IsLeast (observationTimes sha256 observations f'.fingerprint) f'.firstSeen
        rw [h.fingerprint, hfirst]
        exact hleast
      · change f'.firstSeen ≤ f'.lastSeen
        rw [hfirst, hlast]
        exact firstSeen_le_lastSeen hf
      · change f'.firstSeen ≤ time w
        rw [hfirst, ← hwhen]
        exact hdated obs hobs
  | known hold hkey hfirst hlast => exact .again hold (hkey.trans h.fingerprint.symm) hfirst hlast

theorem scanId_correlate {sha256 : List UInt8 → String} {e : CorrelationEngine} {newId : ℕ → String}
    {observations : List Observation} (hf : f ∈ e.correlate sha256 newId observations) :
    f.scanId = e.scanId := by
  obtain ⟨g, -, id, rfl⟩ := exists_group hf
  rfl

theorem map_eq_of_redated (h : List.Forall₂ (Redated previous now) current findings) :
    findings.map UnifiedFinding.fingerprint = current.map UnifiedFinding.fingerprint := by
  induction h with
  | nil => rfl
  | cons hredated _ ih => rw [List.map_cons, List.map_cons, hredated.fingerprint, ih]

/-- What correlation hands to the report. -/
structure Correlated (time : σ → Time) (o : Orchestrator σ) (scan : Scan) (target : Target)
    (validated : List Observation) (findings : List UnifiedFinding) (p p' : Platform σ) : Prop where
  scanId : ∀ f ∈ findings, f.scanId = scan.id
  nodup : (findings.map UnifiedFinding.fingerprint).Nodup
  dates : ∃ previous, Previous p.db scan target previous ∧ ∀ f ∈ findings,
    Dating (observationTimes o.env.digests.sha256 validated) previous (time p.world)
      (time p'.world) f

theorem correlationStage_correlated (h : Timely time o target) {observations : List Observation}
    (hdated : Dated time observations p.world)
    (hrun : o.correlationStage scan target observations p = (.ok (scan', findings), p')) :
    ∃ validated w, o.validationStage target observations p.world = (.ok validated, w) ∧
      Correlated time o scan target validated findings p p' := by
  obtain ⟨validated, p₁, hvalidation, hrun⟩ := Effect.exists_of_bind_ok hrun
  obtain ⟨correlated, p₂, hcorrelate, hrun⟩ := Effect.exists_of_bind_ok hrun
  obtain ⟨merged, p₃, hmerge, hrun⟩ := Effect.exists_of_bind_ok hrun
  obtain ⟨scan₁, p₄, hvalidating, hrun⟩ := Effect.exists_of_bind_ok hrun
  obtain ⟨scan₂, p₅, hreporting, hrun⟩ := Effect.exists_of_bind_ok hrun
  obtain ⟨hpair, rfl⟩ := Effect.eq_of_pure hrun
  obtain ⟨-, rfl⟩ := Prod.mk.inj hpair
  obtain ⟨hvalidation, hdb₁⟩ := exists_of_outside hvalidation
  obtain ⟨hcorrelate, hdb₂⟩ := exists_of_outside hcorrelate
  -- Time goes on from each stage to the next.
  have hlater₁ := (h.rises_validationStage observations).of_run hvalidation
  have hlater₂ := (h.rises_correlate scan validated).of_run hcorrelate
  have hmoved : Unreported time scan p₂ p₃ :=
    (unreported_mergeHistory h scan correlated).of_run hmerge
  have hlater₃ := hmoved.later
  have hsame := returns_setState h.clock (.refl scan) _ _ _ _ _ hvalidating
  have hlater₄ := ((moves_setState h.clock (.refl scan) _ _).of_run hvalidating).later
  have hlater₅ := ((moves_setState h.clock hsame _ _).of_run hreporting).later
  obtain ⟨newId, w, -, hcorrelate⟩ := Effect.exists_of_bind_ok hcorrelate
  obtain ⟨rfl, rfl⟩ := Effect.eq_of_pure hcorrelate
  obtain ⟨previous, hprevious, hall⟩ := redated_mergeHistory h.clock hmerge
  rw [hdb₂, hdb₁] at hprevious
  have hstart : time p.world ≤ time p₂.world := hlater₁.trans hlater₂
  have hfinish : time p₁.world ≤ time p₅.world :=
    hlater₂.trans (hlater₃.trans (hlater₄.trans hlater₅))
  have horigin : ∀ f ∈ merged, ∃ g ∈ (⟨scan.tenantId, scan.id, target.id⟩ :
      CorrelationEngine).correlate o.env.digests.sha256 newId validated,
        Redated previous (time p₂.world) g f :=
    fun f hf ↦ ExceptList.exists_of_forall₂ hall.flip hf
  refine ⟨validated, p₁.world, hvalidation, ?_, ?_, previous, hprevious, ?_⟩
  · rw [List.forall_mem_map]
    intro f hf
    obtain ⟨g, hg, hredated⟩ := horigin f hf
    exact hredated.scanId.trans (scanId_correlate hg)
  · rw [List.map_map]
    change (merged.map UnifiedFinding.fingerprint).Nodup
    rw [map_eq_of_redated hall]
    exact nodup_fingerprints
  · rw [List.forall_mem_map]
    intro f hf
    obtain ⟨g, hg, hredated⟩ := horigin f hf
    have hdated₁ := h.dated_validationStage hdated hvalidation
    exact (dating_of_redated hg hdated₁ hredated _).mono hstart hfinish

/-! ## One run -/

/-- A run up to the validated observations. -/
def Orchestrator.gather (o : Orchestrator σ) (scan : Scan) (target : Target) :
    Effect PyError (Platform σ) (List Observation) := do
  let (scan, scope, plan) ← o.planStage scan target
  let (_, progress) ← o.engineStage scan target scope plan
  outside (o.validationStage target progress.observations)

/-- The result of `gather`; there are no observations when it raises. -/
def Orchestrator.gathered (o : Orchestrator σ) (scan : Scan) (target : Target) (p : Platform σ) :
    List Observation :=
  match (o.gather scan target p).1 with
  | .ok observations => observations
  | .error _ => []

/-- The run of a scan. -/
structure Episode (σ : Type) where
  orchestrator : Orchestrator σ
  target : Target
  scan : Scan
  before : Platform σ

namespace Episode

variable (e : Episode σ)

def after : Platform σ := (e.orchestrator.run e.scan e.target e.before).2

/-- The platform when the authorization has been checked. -/
def begun : Platform σ :=
  { e.before with world := (e.orchestrator.env.clock e.before.world).2 }

/-- The observations that are correlated, as validation leaves them. -/
def observations : List Observation := e.orchestrator.gathered e.scan e.target e.begun

/-- The times of its observations with a fingerprint. -/
def times : String → Set Time :=
  observationTimes e.orchestrator.env.digests.sha256 e.observations

def Completed : Prop := e.after.db.storedState e.scan.id = some .completed

instance : Decidable e.Completed := inferInstanceAs (Decidable (_ = _))

/-- The scan is not completed, and nothing is stored for it yet but rows of its own. -/
structure New : Prop where
  rows : ∀ row ∈ e.before.db.scans, row.id = e.scan.id → RowOf e.scan row
  incomplete : Incomplete e.scan e.before
  findings : ∀ row ∈ e.before.db.findings, row.scanId ≠ e.scan.id

end Episode

theorem Candidate.congr (hsame : SameScan scan scan') (h : Unreported time scan p p')
    (hown : ∀ row ∈ p.db.scans, row.id = scan.id → RowOf scan row) {row : ScanRow} :
    Candidate p'.db scan' target row ↔ Candidate p.db scan target row := by
  have hstored : row.payload.id ≠ scan.id → (row ∈ p'.db.scans ↔ row ∈ p.db.scans) := by
    intro hother
    by_cases hid : row.id = scan.id
    · constructor
      · intro hrow
        exact absurd (h.own hown row hrow hid).payload_id hother
      · intro hrow
        exact absurd (hown row hrow hid).payload_id hother
    · exact h.scans row hid
  constructor
  · intro hrow
    have hother : row.payload.id ≠ scan.id := hsame.id ▸ hrow.other
    exact ⟨(hstored hother).mp hrow.stored, hrow.tenantId.trans hsame.tenantId, hrow.completed,
      hrow.targetId, hother⟩
  · intro hrow
    exact ⟨(hstored hrow.other).mpr hrow.stored, hrow.tenantId.trans hsame.tenantId.symm,
      hrow.completed, hrow.targetId, hsame.id.symm ▸ hrow.other⟩

theorem Previous.congr (hsame : SameScan scan scan') (h : Unreported time scan p p')
    (hown : ∀ row ∈ p.db.scans, row.id = scan.id → RowOf scan row)
    (hprevious : Previous p'.db scan' target previous) : Previous p.db scan target previous := by
  have hcongr : ∀ row, Candidate p'.db scan' target row ↔ Candidate p.db scan target row :=
    fun row ↦ Candidate.congr hsame h hown
  cases hprevious with
  | none hnone => exact .none fun row hrow ↦ hnone row ((hcongr row).mpr hrow)
  | @latest row hrow hlatest =>
      have hfindings : p'.db.findingsForScan row.payload.id =
          p.db.findingsForScan row.payload.id := by
        unfold Database.findingsForScan
        rw [h.unstored]
      rw [hfindings]
      exact .latest ((hcongr row).mp hrow) fun row' hrow' ↦ hlatest row' ((hcongr row').mpr hrow')

theorem Correlated.extend {validated : List Observation} {p₀ p₁ : Platform σ}
    (h : Correlated time o scan' target validated findings p p') (hsame : SameScan scan scan')
    (hbefore : Unreported time scan p₀ p)
    (hown : ∀ row ∈ p₀.db.scans, row.id = scan.id → RowOf scan row)
    (hafter : time p'.world ≤ time p₁.world) :
    Correlated time o scan target validated findings p₀ p₁ := by
  obtain ⟨previous, hprevious, hdates⟩ := h.dates
  exact ⟨fun f hf ↦ (h.scanId f hf).trans hsame.id, h.nodup, previous,
    hprevious.congr hsame hbefore hown, fun f hf ↦ (hdates f hf).mono hbefore.later hafter⟩

theorem Stored.extend {p₀ : Platform σ} (h : Stored time scan findings p p')
    (hbefore : Unreported time scan p₀ p) : Stored time scan findings p₀ p' :=
  ⟨trans_of (Touched time scan) hbefore.toTouched h.toTouched, by
    rw [h.stored, hbefore.unstored], h.concluded⟩

/-- A run stores no finding, or those that its observations and the previous scan give. -/
inductive Outcome (time : σ → Time) (o : Orchestrator σ) (scan : Scan) (target : Target)
    (observations : List Observation) (p p' : Platform σ) : Prop
  | silent (h : Unreported time scan p p')
  | reported {findings : List UnifiedFinding} (hstored : Stored time scan findings p p')
      (hcorrelated : Correlated time o scan target observations findings p p')

theorem Outcome.extend {observations : List Observation} {p₀ : Platform σ}
    (h : Outcome time o scan target observations p p') (hbefore : Unreported time scan p₀ p)
    (hown : ∀ row ∈ p₀.db.scans, row.id = scan.id → RowOf scan row) :
    Outcome time o scan target observations p₀ p' := by
  cases h with
  | silent h => exact .silent (trans_of (Unreported time scan) hbefore h)
  | reported hstored hcorrelated =>
      exact .reported (hstored.extend hbefore)
        (hcorrelated.extend (.refl scan) hbefore hown le_rfl)

theorem conduct_outcome (h : Timely time o target)
    (hown : ∀ row ∈ p.db.scans, row.id = scan.id → RowOf scan row) (hopen : Incomplete scan p)
    (hfresh : ∀ row ∈ p.db.findings, row.scanId ≠ scan.id) :
    Outcome time o scan target (o.gathered scan target p) p (o.conduct scan target p).2 := by
  rcases hplan : o.planStage scan target p with ⟨result₁, p₁⟩
  have hmoved₁ := (unreported_planStage h scan).of_run hplan
  cases result₁ with
  | error e =>
      have hrun : o.conduct scan target p = (.error e, p₁) := Effect.bind_of_error hplan _
      rw [hrun]
      exact .silent hmoved₁
  | ok r₁ =>
      obtain ⟨scan₁, scope, plan⟩ := r₁
      have hsame₁ : SameScan scan scan₁ := returns_planStage h scan _ _ _ hplan
      rcases hengine : o.engineStage scan₁ target scope plan p₁ with ⟨result₂, p₂⟩
      have hmoved₂ := trans_of (Unreported time scan) hmoved₁
        ((unreported_engineStage h hsame₁ scope plan).of_run hengine)
      cases result₂ with
      | error e =>
          have hrun : o.conduct scan target p = (.error e, p₂) :=
            (Effect.bind_of_ok hplan _).trans (Effect.bind_of_error hengine _)
          rw [hrun]
          exact .silent hmoved₂
      | ok r₂ =>
          obtain ⟨scan₂, progress⟩ := r₂
          have hsame₂ : SameScan scan scan₂ := returns_engineStage h hsame₁ _ _ _ _ _ hengine
          rcases hcorrelation : o.correlationStage scan₂ target progress.observations p₂ with
            ⟨result₃, p₃⟩
          have hmoved₃ := trans_of (Unreported time scan) hmoved₂
            ((unreported_correlationStage h hsame₂ _).of_run hcorrelation)
          cases result₃ with
          | error e =>
              have hrun : o.conduct scan target p = (.error e, p₃) :=
                (Effect.bind_of_ok hplan _).trans ((Effect.bind_of_ok hengine _).trans
                  (Effect.bind_of_error hcorrelation _))
              rw [hrun]
              exact .silent hmoved₃
          | ok r₃ =>
              obtain ⟨scan₃, findings⟩ := r₃
              have hsame₃ : SameScan scan scan₃ :=
                returns_correlationStage h hsame₂ _ _ _ _ hcorrelation
              have hrun : (o.conduct scan target p).2 = (o.reportStage scan₃ findings p₃).2 :=
                (congrArg Prod.snd ((Effect.bind_of_ok hplan _).trans
                  ((Effect.bind_of_ok hengine _).trans (Effect.bind_of_ok hcorrelation _)))).trans
                    (Effect.snd_bind_pure _ _ _)
              obtain ⟨validated, w, hvalidation, hcorrelated⟩ :=
                correlationStage_correlated h (dated_engineStage h hengine) hcorrelation
              have hgather : o.gathered scan target p = validated := by
                have hreturned : o.gather scan target p = (.ok validated, { p₂ with world := w }) :=
                  (Effect.bind_of_ok hplan _).trans ((Effect.bind_of_ok hengine _).trans
                    (outside_of_ok hvalidation))
                rw [Orchestrator.gathered, hreturned]
              have hscan : ∀ f ∈ findings, f.scanId = scan.id :=
                fun f hf ↦ (hcorrelated.scanId f hf).trans hsame₂.id
              have hfresh₃ : ∀ row ∈ p₃.db.findings, row.scanId ≠ scan.id :=
                hmoved₃.unstored ▸ hfresh
              rw [hrun, hgather]
              rcases reportStage_writes h hsame₃ hfresh₃ (hmoved₃.incomplete hopen) hscan
                hcorrelated.nodup with hunwritten | hstored
              · rw [hunwritten]
                exact .silent hmoved₃
              · exact .reported (hstored.extend hmoved₃)
                  (hcorrelated.extend hsame₂ hmoved₂ hown hstored.later)

theorem outcome {e : Episode σ} (hnew : e.New) (h : Timely time e.orchestrator e.target) :
    Outcome time e.orchestrator e.scan e.target e.observations e.before e.after := by
  have hbegun : Unreported time e.scan e.before e.begun :=
    unreported_of_world (h.clock.rises e.before.world)
  have hafter : e.after = ((if e.target.isAuthorized (e.orchestrator.env.clock e.before.world).1
      then e.orchestrator.conduct e.scan e.target else e.orchestrator.refuse e.scan) e.begun).2 :=
    congrArg Prod.snd (run_eq e.orchestrator e.scan e.target e.before)
  rw [hafter]
  split_ifs
  · have hconduct := conduct_outcome (p := e.begun) h hnew.rows hnew.incomplete hnew.findings
    exact hconduct.extend hbegun hnew.rows
  · exact .silent (trans_of (Unreported time e.scan) hbegun (unreported_refuse h e.scan e.begun))

end Vantage.Scan
