import Vantage.Persistence.Repositories
import Vantage.Lib.Table

/-!
# Promoted columns

The columns next to a payload repeat fields of it. The updates of the three
repositories copy some of these fields and leave the others.
-/

namespace Vantage.Persistence

/-! ## Rows that agree with their payload -/

structure TargetRow.Mirrors (row : TargetRow) : Prop where
  id : row.id = row.payload.id
  tenantId : row.tenantId = row.payload.tenantId
  name : row.name = row.payload.name
  kind : row.kind = row.payload.kind

structure ScanRow.Mirrors (row : ScanRow) : Prop where
  id : row.id = row.payload.id
  tenantId : row.tenantId = row.payload.tenantId
  targetId : row.targetId = row.payload.targetId
  state : row.state = row.payload.state
  createdBy : row.createdBy = row.payload.createdBy
  startedAt : row.startedAt = row.payload.startedAt
  finishedAt : row.finishedAt = row.payload.finishedAt

structure FindingRow.Mirrors (row : FindingRow) : Prop where
  id : row.id = row.payload.id
  tenantId : row.tenantId = row.payload.tenantId
  scanId : row.scanId = row.payload.scanId
  targetId : row.targetId = row.payload.targetId
  fingerprint : row.fingerprint = row.payload.fingerprint
  category : row.category = row.payload.category
  severity : row.severity = row.payload.severity
  confidence : row.confidence = row.payload.confidence
  riskScore : row.riskScore = row.payload.riskScore
  status : row.status = row.payload.status

namespace Database

structure AllMirror (db : Database) : Prop where
  targets : ∀ row ∈ db.targets, row.Mirrors
  scans : ∀ row ∈ db.scans, row.Mirrors
  findings : ∀ row ∈ db.findings, row.Mirrors

/-- The columns agree with the payloads, so queries return what they ask for. -/
structure NoDrift (db : Database) : Prop where
  mirror : db.AllMirror
  listTargets : ∀ tenantId, ∀ target ∈ db.listTargets tenantId, target.tenantId = tenantId
  listScans : ∀ tenantId state, ∀ scan ∈ db.listScans tenantId state, scan.tenantId = tenantId
  forScan : ∀ scanId, ∀ finding ∈ db.findingsForScan scanId, finding.scanId = scanId

variable {db : Database}

theorem AllMirror.noDrift (h : db.AllMirror) : db.NoDrift := by
  refine ⟨h, ?_, ?_, ?_⟩
  · intro tenantId target hmem
    obtain ⟨row, hrow, rfl⟩ := List.mem_map.mp hmem
    obtain ⟨hrow, htenant⟩ := List.mem_filter.mp hrow
    rw [← (h.targets row hrow).tenantId]
    simpa using htenant
  · intro tenantId state scan hmem
    obtain ⟨row, hrow, rfl⟩ := List.mem_map.mp hmem
    obtain ⟨hrow, htenant⟩ := List.mem_filter.mp ((List.mem_insertionSort _).mp hrow)
    rw [← (h.scans row hrow).tenantId]
    exact (of_decide_eq_true htenant).1
  · intro scanId finding hmem
    obtain ⟨row, hrow, rfl⟩ := List.mem_map.mp hmem
    obtain ⟨hrow, hscan⟩ := List.mem_filter.mp ((List.mem_insertionSort _).mp hrow)
    rw [← (h.findings row hrow).scanId]
    simpa using hscan

theorem noDrift_iff : db.NoDrift ↔ db.AllMirror := ⟨NoDrift.mirror, AllMirror.noDrift⟩

/-! ## One write -/

inductive Upsert where
  | target (target : Target) (now : Time)
  | scan (scan : Scan)
  | finding (finding : UnifiedFinding)

def Upsert.apply (db : Database) : Upsert → Except PyError Database
  | .target t now => .ok (db.upsertTarget t now)
  | .scan s => .ok (db.upsertScan s)
  | .finding f => db.upsertFinding f

/-- A write that raises is rolled back. -/
def step (db : Database) (u : Upsert) : Database :=
  match u.apply db with
  | .ok db' => db'
  | .error _ => db

/-- A write that finds a row carries the columns that the update leaves alone. -/
def Keeps (db : Database) : Upsert → Prop
  | .target _ _ => True
  | .scan s => ∀ row ∈ db.scans, row.id = s.id →
      row.tenantId = s.tenantId ∧ row.targetId = s.targetId ∧ row.createdBy = s.createdBy
  | .finding f => ∀ row ∈ db.findings, samePlace f row = true →
      row.id = f.id ∧ row.tenantId = f.tenantId ∧ row.targetId = f.targetId ∧
        row.category = f.category

/-! ### Targets -/

theorem targets_upsertTarget (db : Database) (target : Target) (now : Time) :
    (db.upsertTarget target now).targets =
      Table.upsert (fun target row ↦ decide (row.id = target.id))
        (fun target row ↦ updateTargetRow target now row) (fun target ↦ newTargetRow target now)
        db.targets target := by
  unfold upsertTarget Table.upsert
  split_ifs <;> simp

theorem AllMirror.upsertTarget (h : db.AllMirror) (target : Target) (now : Time) :
    (db.upsertTarget target now).AllMirror := by
  refine ⟨?_, ?_, ?_⟩
  · rw [targets_upsertTarget]
    refine (Table.forall_mem_upsert_iff h.targets ⟨rfl, rfl, rfl, rfl⟩).mpr fun row _ hfound ↦ ?_
    exact ⟨of_decide_eq_true hfound, rfl, rfl, rfl⟩
  · unfold Database.upsertTarget
    split_ifs <;> exact h.scans
  · unfold Database.upsertTarget
    split_ifs <;> exact h.findings

/-! ### Scans -/

theorem scans_upsertScan (db : Database) (scan : Scan) :
    (db.upsertScan scan).scans =
      Table.upsert (fun scan row ↦ decide (row.id = scan.id)) updateScanRow newScanRow
        db.scans scan := by
  unfold upsertScan Table.upsert
  split_ifs <;> simp

theorem mirrors_updateScanRow {scan : Scan} {row : ScanRow} (hid : row.id = scan.id) :
    (updateScanRow scan row).Mirrors ↔
      row.tenantId = scan.tenantId ∧ row.targetId = scan.targetId ∧
        row.createdBy = scan.createdBy :=
  ⟨fun h ↦ ⟨h.tenantId, h.targetId, h.createdBy⟩,
    fun ⟨htenant, htarget, hcreator⟩ ↦ ⟨hid, htenant, htarget, rfl, hcreator, rfl, rfl⟩⟩

theorem AllMirror.upsertScan_iff (h : db.AllMirror) (scan : Scan) :
    (db.upsertScan scan).AllMirror ↔ Keeps db (.scan scan) := by
  have hscans : (∀ row ∈ (db.upsertScan scan).scans, row.Mirrors) ↔ Keeps db (.scan scan) := by
    rw [scans_upsertScan, Table.forall_mem_upsert_iff h.scans ⟨rfl, rfl, rfl, rfl, rfl, rfl, rfl⟩]
    refine forall₂_congr fun row _ ↦ ?_
    rw [decide_eq_true_iff]
    exact forall_congr' fun hid ↦ mirrors_updateScanRow hid
  refine ⟨fun h' ↦ hscans.mp h'.scans, fun hkeeps ↦ ⟨?_, hscans.mpr hkeeps, ?_⟩⟩
  · unfold Database.upsertScan
    split_ifs <;> exact h.targets
  · unfold Database.upsertScan
    split_ifs <;> exact h.findings

/-! ### Findings -/

theorem findings_upsertFinding {db' : Database} {finding : UnifiedFinding}
    (hok : db.upsertFinding finding = .ok db') :
    db' = { db with findings :=
              Table.upsert samePlace updateFindingRow newFindingRow db.findings finding } := by
  unfold upsertFinding at hok
  unfold Table.upsert
  split_ifs at hok ⊢ with hfound
  · exact (Except.ok.inj hok).symm
  · exact (Except.ok.inj hok).symm

theorem mirrors_updateFindingRow {finding : UnifiedFinding} {row : FindingRow}
    (hplace : samePlace finding row = true) :
    (updateFindingRow finding row).Mirrors ↔
      row.id = finding.id ∧ row.tenantId = finding.tenantId ∧ row.targetId = finding.targetId ∧
        row.category = finding.category := by
  obtain ⟨hscan, hfingerprint⟩ := of_decide_eq_true hplace
  refine ⟨fun h ↦ ⟨h.id, h.tenantId, h.targetId, h.category⟩, ?_⟩
  rintro ⟨hid, htenant, htarget, hcategory⟩
  exact ⟨hid, htenant, hscan, htarget, hfingerprint, hcategory, rfl, rfl, rfl, rfl⟩

theorem AllMirror.upsertFinding_iff (h : db.AllMirror) {db' : Database} {finding : UnifiedFinding}
    (hok : db.upsertFinding finding = .ok db') :
    db'.AllMirror ↔ Keeps db (.finding finding) := by
  have hfindings : (∀ row ∈ db'.findings, row.Mirrors) ↔ Keeps db (.finding finding) := by
    rw [findings_upsertFinding hok, Table.forall_mem_upsert_iff h.findings
      ⟨rfl, rfl, rfl, rfl, rfl, rfl, rfl, rfl, rfl, rfl⟩]
    exact forall₂_congr fun row _ ↦ forall_congr' fun hplace ↦ mirrors_updateFindingRow hplace
  refine ⟨fun h' ↦ hfindings.mp h'.findings, fun hkeeps ↦ ⟨?_, ?_, hfindings.mpr hkeeps⟩⟩
  · rw [findings_upsertFinding hok]
    exact h.targets
  · rw [findings_upsertFinding hok]
    exact h.scans

/-- A finding that is refused has no row to find. -/
theorem keeps_of_upsertFinding_error {finding : UnifiedFinding} {e : PyError}
    (herror : db.upsertFinding finding = .error e) : Keeps db (.finding finding) := by
  unfold upsertFinding at herror
  split_ifs at herror with hfound
  intro row hrow hplace
  exact absurd (List.any_eq_true.mpr ⟨row, hrow, hplace⟩) hfound

/-! ## A run of writes -/

/-- One write leaves the columns true exactly when it carries what the update leaves alone. -/
theorem AllMirror.step_iff (h : db.AllMirror) (u : Upsert) :
    (db.step u).AllMirror ↔ Keeps db u := by
  cases u with
  | target t now => exact iff_of_true (h.upsertTarget t now) trivial
  | scan s => exact h.upsertScan_iff s
  | finding f =>
      unfold step
      cases hok : (Upsert.finding f).apply db with
      | ok db' => exact h.upsertFinding_iff hok
      | error e => exact iff_of_true h (keeps_of_upsertFinding_error hok)

def run (db : Database) (us : List Upsert) : Database := us.foldl step db

/-- Every write of the run carries what the update leaves alone. -/
def KeepsAll (db : Database) : List Upsert → Prop
  | [] => True
  | u :: us => Keeps db u ∧ KeepsAll (db.step u) us

/-- No column drifts along a run exactly when every write carries what the update leaves
alone. -/
theorem noDrift_run_iff (h : db.AllMirror) (us : List Upsert) :
    (∀ pre, pre <+: us → (db.run pre).NoDrift) ↔ KeepsAll db us := by
  induction us generalizing db with
  | nil =>
      refine iff_of_true (fun pre hpre ↦ ?_) trivial
      rw [List.prefix_nil.mp hpre]
      exact h.noDrift
  | cons u us ih =>
      constructor
      · intro hall
        have hstep : (db.step u).AllMirror := (hall [u] ⟨us, rfl⟩).mirror
        refine ⟨(h.step_iff u).mp hstep, (ih hstep).mp fun pre hpre ↦ ?_⟩
        exact hall (u :: pre) (List.cons_prefix_cons.mpr ⟨rfl, hpre⟩)
      · rintro ⟨hkeeps, hrest⟩ pre hpre
        rcases List.prefix_cons_iff.mp hpre with rfl | ⟨pre, rfl, hpre'⟩
        · exact h.noDrift
        · exact (ih ((h.step_iff u).mpr hkeeps)).mpr hrest pre hpre'

def empty : Database := ⟨[], [], [], [], []⟩

theorem allMirror_empty : empty.AllMirror := ⟨by simp [empty], by simp [empty], by simp [empty]⟩

def nightlyScan : Scan where
  id := "s"
  tenantId := "t"
  targetId := "g"
  createdBy := "u"
  createdAt := 0

def nightlyRun : List Upsert := [.scan nightlyScan, .scan { nightlyScan with state := .queued }]

theorem keepsAll_nightlyRun : empty.KeepsAll nightlyRun := by
  refine ⟨?_, ?_, trivial⟩
  · intro row hrow
    exact absurd hrow List.not_mem_nil
  · intro row hrow _
    rw [List.mem_singleton.mp hrow]
    exact ⟨rfl, rfl, rfl⟩

theorem noDrift_nightlyRun : (empty.run nightlyRun).NoDrift :=
  (noDrift_run_iff allMirror_empty nightlyRun).mpr keepsAll_nightlyRun _ List.prefix_rfl

/-- The scan goes to another tenant; its row stays with the first. -/
theorem not_noDrift_movedScan :
    ¬ ∀ us, (empty.run us).NoDrift := by
  intro h
  have hmoved : { nightlyScan with tenantId := "other" } ∈
      (empty.run [.scan nightlyScan, .scan { nightlyScan with tenantId := "other" }]).listScans
        "t" none := List.mem_singleton_self _
  have htenant := (h _).listScans "t" none _ hmoved
  exact absurd htenant (by decide)

end Database

end Vantage.Persistence
