import Vantage.Domain.Scan
import Vantage.Lib.Effect

/-!
# Repositories

A table is the list of its rows in the order of insertion. Rows hold the
domain object as payload next to the columns that queries use.
-/

namespace Vantage.Persistence

structure TargetRow where
  id : String
  tenantId : String
  name : String
  kind : ApplicationKind
  authorized : Bool
  createdAt : Time
  payload : Target

structure ScanRow where
  id : String
  tenantId : String
  targetId : String
  state : ScanState
  createdBy : String
  createdAt : Time
  startedAt : Option Time
  finishedAt : Option Time
  payload : Scan

structure ObservationRow where
  id : String
  scanId : String
  runId : String
  engineId : String
  vulnClass : String
  severity : Severity
  host : String
  payload : Observation

structure FindingRow where
  id : String
  tenantId : String
  scanId : String
  targetId : String
  fingerprint : String
  category : String
  severity : Severity
  confidence : Confidence
  riskScore : ℚ
  status : FindingStatus
  payload : UnifiedFinding

structure AuditRow where
  tenantId : String
  actor : String
  action : String
  resource : String
  at_ : Time
  detail : String

structure Database where
  targets : List TargetRow
  scans : List ScanRow
  observations : List ObservationRow
  findings : List FindingRow
  audit : List AuditRow

namespace Database

variable (db : Database)

/-! ## Targets -/

def newTargetRow (target : Target) (now : Time) : TargetRow where
  id := target.id
  tenantId := target.tenantId
  name := target.name
  kind := target.kind
  authorized := target.isAuthorized now
  createdAt := target.createdAt
  payload := target

def updateTargetRow (target : Target) (now : Time) (row : TargetRow) : TargetRow :=
  { row with
    tenantId := target.tenantId
    name := target.name
    kind := target.kind
    authorized := target.isAuthorized now
    payload := target }

/-- `TargetRepository.upsert`. -/
def upsertTarget (target : Target) (now : Time) : Database :=
  if db.targets.any (·.id = target.id) then
    { db with targets := db.targets.map fun row ↦
        if row.id = target.id then updateTargetRow target now row else row }
  else { db with targets := db.targets ++ [newTargetRow target now] }

/-- `TargetRepository.list`. -/
def listTargets (tenantId : String) : List Target :=
  (db.targets.filter (·.tenantId = tenantId)).map TargetRow.payload

/-! ## Scans -/

def newScanRow (scan : Scan) : ScanRow where
  id := scan.id
  tenantId := scan.tenantId
  targetId := scan.targetId
  state := scan.state
  createdBy := scan.createdBy
  createdAt := scan.createdAt
  startedAt := scan.startedAt
  finishedAt := scan.finishedAt
  payload := scan

def updateScanRow (scan : Scan) (row : ScanRow) : ScanRow :=
  { row with
    state := scan.state
    startedAt := scan.startedAt
    finishedAt := scan.finishedAt
    payload := scan }

/-- `ScanRepository.upsert`. -/
def upsertScan (scan : Scan) : Database :=
  if db.scans.any (·.id = scan.id) then
    { db with scans := db.scans.map fun row ↦
        if row.id = scan.id then updateScanRow scan row else row }
  else { db with scans := db.scans ++ [newScanRow scan] }

def getScanRow (scanId : String) : Option ScanRow := db.scans.find? (·.id = scanId)

/-- `ScanRepository.get`. -/
def getScan (scanId : String) : Option Scan := (db.getScanRow scanId).map ScanRow.payload

/-- `ScanRepository.list`, the latest first. -/
def listScans (tenantId : String) (state : Option ScanState) : List Scan :=
  let rows := db.scans.filter fun row ↦ row.tenantId = tenantId ∧ ∀ st ∈ state, row.state = st
  (rows.insertionSort fun r r' ↦ r'.createdAt ≤ r.createdAt).map ScanRow.payload

/-! ## Observations -/

def newObservationRow (obs : Observation) : ObservationRow where
  id := obs.id
  scanId := obs.scanId
  runId := obs.runId
  engineId := obs.engineId
  vulnClass := obs.vulnClass
  severity := obs.severity
  host := obs.location.host
  payload := obs

/-- `ObservationRepository.add_many`; the identifier is the primary key. -/
def addObservations (observations : List Observation) : Except PyError Database :=
  let rows := db.observations ++ observations.map newObservationRow
  if (rows.map ObservationRow.id).Nodup then .ok { db with observations := rows }
  else .error .integrityError

/-! ## Findings -/

def newFindingRow (finding : UnifiedFinding) : FindingRow where
  id := finding.id
  tenantId := finding.tenantId
  scanId := finding.scanId
  targetId := finding.targetId
  fingerprint := finding.fingerprint
  category := finding.category
  severity := finding.severity
  confidence := finding.confidence
  riskScore := finding.riskScore
  status := finding.status
  payload := finding

def updateFindingRow (finding : UnifiedFinding) (row : FindingRow) : FindingRow :=
  { row with
    severity := finding.severity
    confidence := finding.confidence
    riskScore := finding.riskScore
    status := finding.status
    payload := finding }

def samePlace (finding : UnifiedFinding) (row : FindingRow) : Bool :=
  row.scanId = finding.scanId ∧ row.fingerprint = finding.fingerprint

/-- `FindingRepository.upsert`; a new row must have a new primary key. -/
def upsertFinding (finding : UnifiedFinding) : Except PyError Database :=
  if db.findings.any (samePlace finding) then
    .ok { db with findings := db.findings.map fun row ↦
            if samePlace finding row then updateFindingRow finding row else row }
  else if db.findings.any (·.id = finding.id) then .error .integrityError
  else .ok { db with findings := db.findings ++ [newFindingRow finding] }

/-- `FindingRepository.for_scan`, the highest risk first. -/
def findingsForScan (scanId : String) : List UnifiedFinding :=
  let rows := db.findings.filter (·.scanId = scanId)
  (rows.insertionSort fun r r' ↦ r'.riskScore ≤ r.riskScore).map FindingRow.payload

/-- `AuditRepository.record`. -/
def record (entry : AuditRow) : Database := { db with audit := db.audit ++ [entry] }

end Database

/-! ## Units of work -/

/-- The database next to the rest of the world. -/
structure Platform (σ : Type) where
  db : Database
  world : σ

variable {σ α : Type}

/-- A transaction; when it raises, nothing of it remains. -/
def unitOfWork (body : Database → Except PyError Database) : Effect PyError (Platform σ) Unit :=
  fun p ↦
    match body p.db with
    | .ok db => (.ok (), { p with db := db })
    | .error e => (.error e, p)

/-- A computation that does not touch the database. -/
def outside (m : Effect PyError σ α) : Effect PyError (Platform σ) α := fun p ↦
  ((m p.world).1, { p with world := (m p.world).2 })

variable {p : Platform σ}

theorem outside_of_ok {m : Effect PyError σ α} {a : α} {w : σ} (h : m p.world = (.ok a, w)) :
    outside m p = (.ok a, { p with world := w }) := by
  rw [outside, h]

theorem outside_of_error {m : Effect PyError σ α} {e : PyError} {w : σ}
    (h : m p.world = (.error e, w)) : outside m p = (.error e, { p with world := w }) := by
  rw [outside, h]

theorem exists_of_outside {m : Effect PyError σ α} {a : α} {p' : Platform σ}
    (h : outside m p = (.ok a, p')) : m p.world = (.ok a, p'.world) ∧ p'.db = p.db := by
  rw [outside, Prod.mk.injEq] at h
  obtain ⟨hresult, rfl⟩ := h
  exact ⟨Prod.ext hresult rfl, rfl⟩

theorem unitOfWork_of_ok {body : Database → Except PyError Database} {db : Database}
    (h : body p.db = .ok db) : unitOfWork body p = (.ok (), { p with db := db }) := by
  rw [unitOfWork, h]

theorem unitOfWork_of_error {body : Database → Except PyError Database} {e : PyError}
    (h : body p.db = .error e) : unitOfWork body p = (.error e, p) := by
  rw [unitOfWork, h]

/-! ## The stored state of a scan -/

namespace Database

variable {db : Database} {scan : Scan} {i : String}

/-- The state in the row of a scan. -/
def storedState (db : Database) (scanId : String) : Option ScanState :=
  (db.getScanRow scanId).map ScanRow.state

theorem find_map_update (rows : List ScanRow) (scan : Scan) (i : String) :
    (rows.map fun row ↦ if row.id = scan.id then updateScanRow scan row else row).find? (·.id = i) =
      (rows.find? (·.id = i)).map fun row ↦
        if row.id = scan.id then updateScanRow scan row else row := by
  rw [List.find?_map]
  congr 1
  apply List.find?_congr
  intro row _
  simp only [Function.comp_apply]
  split_ifs <;> rfl

/-- The columns of the row that change with the scan, and its payload. -/
structure Mirrors (row : ScanRow) (scan : Scan) : Prop where
  state : row.state = scan.state
  startedAt : row.startedAt = scan.startedAt
  finishedAt : row.finishedAt = scan.finishedAt
  payload : row.payload = scan

theorem exists_row_upsertScan (db : Database) (scan : Scan) :
    ∃ row, (db.upsertScan scan).getScanRow scan.id = some row ∧ Mirrors row scan := by
  unfold upsertScan
  split_ifs with hany
  · obtain ⟨row, hrow, hid⟩ := List.any_eq_true.mp hany
    rw [getScanRow, find_map_update]
    cases hfind : db.scans.find? (·.id = scan.id) with
    | none => exact absurd hid (List.find?_eq_none.mp hfind row hrow)
    | some row' =>
        have hid' : row'.id = scan.id := by simpa using List.find?_some hfind
        rw [Option.map_some, if_pos hid']
        exact ⟨_, rfl, rfl, rfl, rfl, rfl⟩
  · have hnone : db.scans.find? (·.id = scan.id) = none := by
      apply List.find?_eq_none.mpr
      intro row hrow hid
      exact hany (List.any_eq_true.mpr ⟨row, hrow, hid⟩)
    refine ⟨newScanRow scan, ?_, rfl, rfl, rfl, rfl⟩
    simp [getScanRow, List.find?_append, hnone, newScanRow]

theorem storedState_upsertScan_self (db : Database) (scan : Scan) :
    (db.upsertScan scan).storedState scan.id = some scan.state := by
  obtain ⟨row, hrow, hmirrors⟩ := exists_row_upsertScan db scan
  rw [storedState, hrow, Option.map_some, hmirrors.state]

theorem storedState_upsertScan_of_ne (hne : i ≠ scan.id) :
    (db.upsertScan scan).storedState i = db.storedState i := by
  unfold upsertScan
  split_ifs with hany
  · rw [storedState, getScanRow, find_map_update, storedState, getScanRow]
    cases hfind : db.scans.find? (·.id = i) with
    | none => rfl
    | some row =>
        have hid : row.id = i := by simpa using List.find?_some hfind
        simp [hid, hne]
  · have hnew : ¬ scan.id = i := fun h ↦ hne h.symm
    simp [storedState, getScanRow, List.find?_append, newScanRow, hnew]

@[simp] theorem audit_upsertScan (db : Database) (scan : Scan) :
    (db.upsertScan scan).audit = db.audit := by
  unfold upsertScan
  split_ifs <;> rfl

@[simp] theorem audit_record (db : Database) (entry : AuditRow) :
    (db.record entry).audit = db.audit ++ [entry] := rfl

@[simp] theorem getScanRow_record (entry : AuditRow) :
    (db.record entry).getScanRow i = db.getScanRow i := rfl

@[simp] theorem storedState_record (entry : AuditRow) :
    (db.record entry).storedState i = db.storedState i := rfl

end Database

end Vantage.Persistence
