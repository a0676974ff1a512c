import Vantage.Persistence.Columns

/-!
# Sessions

A session keeps the rows that were added or changed back until a query or the
commit flushes them. Over any run of units of work the table of findings holds,
for each scan and fingerprint, the finding that was written last.
-/

namespace Vantage.Persistence

/-- The tables as of the last commit, the tables as the transaction sees them, and the rows that
are not flushed yet. -/
structure Session where
  stored : Database
  tables : Database
  added : List FindingRow
  changed : List FindingRow

namespace Session

open Database

abbrev Work := Effect PyError Session

def start (db : Database) : Session := ⟨db, db, [], []⟩

/-! ## Statements -/

def setFindings (rows : List FindingRow) (s : Session) : Session :=
  { s with tables := { s.tables with findings := rows } }

/-- The row has the primary key of another one, or its entry in the unique index. -/
def clashes (row other : FindingRow) : Bool :=
  other.id = row.id ∨ (other.scanId = row.scanId ∧ other.fingerprint = row.fingerprint)

def insertRow (row : FindingRow) : Work Unit := do
  let s ← Effect.get
  if s.tables.findings.any (clashes row) then Effect.raise .integrityError
  else Effect.modify (setFindings (s.tables.findings ++ [row]))

/-- An update by primary key. -/
def updateRow (row : FindingRow) : Work Unit :=
  Effect.modify fun s ↦ s.setFindings
    (s.tables.findings.map fun other ↦ if other.id = row.id then row else other)

def flush : Work Unit := do
  let s ← Effect.get
  Effect.foldl (fun _ row ↦ updateRow row) () s.changed
  Effect.foldl (fun _ row ↦ insertRow row) () s.added
  Effect.modify fun s ↦ { s with added := [], changed := [] }

/-- The rows of a query; the session is flushed before. -/
def query (p : FindingRow → Bool) : Work (List FindingRow) := do
  flush
  let s ← Effect.get
  pure (s.tables.findings.filter p)

def scalarOneOrNone : List FindingRow → Except PyError (Option FindingRow)
  | [] => .ok none
  | [row] => .ok (some row)
  | _ => .error (.other "Multiple rows were found when one or none was required")

/-! ## The repository -/

/-- `FindingRepository.upsert`. -/
def upsert (finding : UnifiedFinding) : Work Unit := do
  let rows ← query (samePlace finding)
  let existing ← Effect.ofExcept (scalarOneOrNone rows)
  match existing with
  | none => Effect.modify fun s ↦ { s with added := s.added ++ [newFindingRow finding] }
  | some row =>
      Effect.modify fun s ↦ { s with changed := s.changed ++ [updateFindingRow finding row] }

/-- What `FindingRepository.for_scan` makes of its rows. -/
def forScan (rows : List FindingRow) (minSeverity : Option Severity) : List UnifiedFinding :=
  let findings := rows.map fun row ↦ row.payload.revalidate
  match minSeverity with
  | none => findings
  | some m => findings.filter fun f ↦ m.rank ≤ f.severity.rank

/-- Rows that the query of `for_scan` may give; those of one score come in any order. -/
structure Answers (db : Database) (scanId : String) (rows : List FindingRow) : Prop where
  perm : rows.Perm (db.findings.filter (·.scanId = scanId))
  ordered : rows.Pairwise fun row row' ↦ row'.riskScore ≤ row.riskScore

/-! ## Units of work -/

def commit : Work Unit := do
  flush
  Effect.modify fun s ↦ { s with stored := s.tables }

def rollback : Work Unit := Effect.modify fun s ↦ start s.stored

def close : Work Unit := rollback

/-- `Database.unit_of_work` around a body. -/
def unitOfWork (body : Work Unit) : Work Unit :=
  Effect.recover (do body; commit; close) fun e ↦ do
    rollback
    close
    Effect.raise e

/-- What a body may do with the findings, or that it raises. -/
inductive Call where
  | upsert (finding : UnifiedFinding)
  | forScan (scanId : String)
  | raise (e : PyError)

def Call.run : Call → Work Unit
  | .upsert finding => Session.upsert finding
  | .forScan scanId => do
      let _ ← query (·.scanId = scanId)
      pure ()
  | .raise e => Effect.raise e

def Call.writes : Call → List UnifiedFinding
  | .upsert finding => [finding]
  | .forScan _ => []
  | .raise _ => []

def runCalls (calls : List Call) : Work Unit := Effect.foldl (fun _ call ↦ call.run) () calls

/-- A unit of work in a session of its own: how it ends, and what is stored then. -/
def runUnit (db : Database) (calls : List Call) : Except PyError Unit × Database :=
  ((unitOfWork (runCalls calls) (start db)).1, (unitOfWork (runCalls calls) (start db)).2.stored)

def runUnits (db : Database) (units : List (List Call)) : Database :=
  units.foldl (fun db calls ↦ (runUnit db calls).2) db

/-- The findings that were written by the units that did not raise, in order. -/
def committed (db : Database) : List (List Call) → List UnifiedFinding
  | [] => []
  | calls :: units =>
      (match (runUnit db calls).1 with
        | .ok _ => calls.flatMap Call.writes
        | .error _ => []) ++ committed (runUnit db calls).2 units

end Session

/-! ## The map -/

def placeOf (finding : UnifiedFinding) : String × String := (finding.scanId, finding.fingerprint)

def FindingRow.place (row : FindingRow) : String × String := (row.scanId, row.fingerprint)

/-- The last of the findings with the scan and the fingerprint. -/
def lastWrite (writes : List UnifiedFinding) (scanId fingerprint : String) :
    Option UnifiedFinding := Table.last placeOf writes (scanId, fingerprint)

/-- What is read for a scan is the map of the last writes. -/
structure LastWins (writes : List UnifiedFinding) (scanId : String) (rows : List FindingRow) :
    Prop where
  one : ∀ fingerprint, (Session.forScan rows none).filter (·.fingerprint = fingerprint) =
    (lastWrite writes scanId fingerprint).toList
  ordered : (Session.forScan rows none).Pairwise fun f f' ↦ f'.riskScore ≤ f.riskScore
  severe : ∀ m, Session.forScan rows (some m) =
    (Session.forScan rows none).filter fun f ↦ m.rank ≤ f.severity.rank

/-! ## The table after some writes -/

open Database

theorem keyed_findings : Table.Keyed samePlace updateFindingRow newFindingRow FindingRow.place
    placeOf FindingRow.payload where
  finds_iff finding row := by simp [samePlace, FindingRow.place, placeOf]
  key_update _ _ := rfl
  key_new _ := rfl
  value_update _ _ := rfl
  value_new _ := rfl

def tableOf (writes : List UnifiedFinding) : List FindingRow :=
  writes.foldl (Table.upsert samePlace updateFindingRow newFindingRow) []

variable {writes : List UnifiedFinding} {finding : UnifiedFinding} {rows : List FindingRow}

theorem tableOf_concat (writes : List UnifiedFinding) (finding : UnifiedFinding) :
    tableOf (writes ++ [finding]) =
      Table.upsert samePlace updateFindingRow newFindingRow (tableOf writes) finding := by
  rw [tableOf, List.foldl_append]
  rfl

theorem holdsLast_tableOf (writes : List UnifiedFinding) :
    Table.HoldsLast FindingRow.place placeOf FindingRow.payload (tableOf writes) writes :=
  Table.holdsLast_foldl keyed_findings writes

theorem length_filter_place_le (writes : List UnifiedFinding) (place : String × String) :
    ((tableOf writes).filter fun row ↦ row.place = place).length ≤ 1 := by
  have hlength := congrArg List.length (holdsLast_tableOf writes place)
  rw [List.length_map] at hlength
  exact hlength.trans_le Option.length_toList_le

/-- Every row has the identifier of the write that made it. -/
theorem ids_sublist (writes : List UnifiedFinding) :
    ((tableOf writes).map FindingRow.id).Sublist (writes.map UnifiedFinding.id) := by
  induction writes using List.reverseRecOn with
  | nil => exact List.Sublist.slnil
  | append_singleton writes finding ih =>
      rw [tableOf_concat, List.map_append]
      unfold Table.upsert
      split_ifs
      · have hsame : ∀ row ∈ tableOf writes,
            FindingRow.id (if samePlace finding row then updateFindingRow finding row else row) =
              row.id := by
          intro row _
          split_ifs <;> rfl
        have hids : (tableOf writes).map (FindingRow.id ∘ fun row ↦
            if samePlace finding row then updateFindingRow finding row else row) =
            (tableOf writes).map FindingRow.id := List.map_congr_left hsame
        rw [List.map_map, hids]
        exact ih.trans (List.sublist_append_left _ _)
      · rw [List.map_append]
        exact ih.append (List.Sublist.refl _)

theorem mirrors_tableOf (writes : List UnifiedFinding) : ∀ row ∈ tableOf writes,
    row.place = placeOf row.payload ∧ row.riskScore = row.payload.riskScore := by
  induction writes using List.reverseRecOn with
  | nil => exact List.forall_mem_nil _
  | append_singleton writes finding ih =>
      rw [tableOf_concat, Table.forall_mem_upsert_iff ih ⟨rfl, rfl⟩]
      exact fun row _ hfound ↦ ⟨(keyed_findings.finds_iff finding row).mp hfound, rfl⟩

/-! ## Flushing -/

namespace Session

variable {s s' : Session}

def flushed (s : Session) (rows : List FindingRow) : Session :=
  { s.setFindings rows with added := [], changed := [] }

/-- A flush makes these the rows of the table. -/
def Flushes (s : Session) (rows : List FindingRow) : Prop := flush s = (.ok (), s.flushed rows)

theorem flushes_flushed (s : Session) (rows : List FindingRow) : Flushes (s.flushed rows) rows := rfl

theorem flushes_start (db : Database) : Flushes (start db) db.findings := rfl

theorem query_of_flushes (h : Flushes s rows) (p : FindingRow → Bool) :
    query p s = (.ok (rows.filter p), s.flushed rows) := by
  rw [query, Effect.bind_of_ok h]
  rfl

/-- A changed row takes the place of the row with its primary key. -/
theorem flushes_changed (s : Session) (rows : List FindingRow) (row : FindingRow) :
    Flushes { s.flushed rows with changed := [row] }
      (rows.map fun other ↦ if other.id = row.id then row else other) := rfl

theorem insertRow_of_not_clash {row : FindingRow}
    (h : s.tables.findings.any (clashes row) = false) :
    insertRow row s = (.ok (), s.setFindings (s.tables.findings ++ [row])) := by
  rw [insertRow, Effect.bind_of_ok (Effect.get_apply s), if_neg (by simp [h])]
  rfl

theorem flushes_added (s : Session) {row : FindingRow} (h : rows.any (clashes row) = false) :
    Flushes { s.flushed rows with added := [row] } (rows ++ [row]) := by
  have hinsert : insertRow row { s.flushed rows with added := [row] } =
      (.ok (), { s.flushed (rows ++ [row]) with added := [row] }) := insertRow_of_not_clash h
  change ((insertRow row >>= fun _ ↦ pure ()) >>= fun _ ↦ _) _ = _
  rw [Effect.bind_of_ok (Effect.bind_of_ok hinsert _)]
  rfl

/-- An `upsert` that finds one row or none is a write to the table. -/
theorem upsert_spec (h : Flushes s rows) (hids : (rows.map FindingRow.id).Nodup)
    (hplaces : ∀ place, (rows.filter fun row ↦ row.place = place).length ≤ 1)
    (hfresh : finding.id ∉ rows.map FindingRow.id) :
    ∃ s', upsert finding s = (.ok (), s') ∧
      Flushes s' (Table.upsert samePlace updateFindingRow newFindingRow rows finding) := by
  have hfilter : rows.filter (samePlace finding) =
      rows.filter fun row ↦ row.place = placeOf finding := by
    refine List.filter_congr fun row _ ↦ ?_
    rw [Bool.eq_iff_iff, decide_eq_true_iff]
    exact keyed_findings.finds_iff finding row
  have hone : (rows.filter (samePlace finding)).length ≤ 1 := hfilter ▸ hplaces _
  rw [upsert, Effect.bind_of_ok (query_of_flushes h _)]
  unfold Table.upsert
  split_ifs with hany
  · obtain ⟨row, hrow, hfound⟩ := List.any_eq_true.mp hany
    have hmem := List.mem_filter.mpr ⟨hrow, hfound⟩
    obtain ⟨row', hsingle⟩ := List.length_eq_one_iff.mp
      (le_antisymm hone (List.length_pos_of_mem hmem))
    obtain rfl : row = row' := List.mem_singleton.mp (hsingle ▸ hmem)
    rw [hsingle]
    refine ⟨_, rfl, ?_⟩
    have hupdated : (rows.map fun other ↦ if samePlace finding other then
          updateFindingRow finding other else other) =
        rows.map fun other ↦ if other.id = (updateFindingRow finding row).id then
          updateFindingRow finding row else other := by
      refine List.map_congr_left fun other hother ↦ ?_
      by_cases heq : other = row
      · rw [heq, if_pos hfound]
        exact (if_pos rfl).symm
      · have hplace : ¬ samePlace finding other = true := fun hfound' ↦
          heq (List.mem_singleton.mp (hsingle ▸ List.mem_filter.mpr ⟨hother, hfound'⟩))
        have hid : ¬ other.id = row.id := fun hid ↦
          heq (List.inj_on_of_nodup_map hids hother hrow hid)
        rw [if_neg hplace]
        exact (if_neg hid).symm
    rw [hupdated]
    exact flushes_changed s rows _
  · have hnone : rows.filter (samePlace finding) = [] := by
      rw [List.filter_eq_nil_iff]
      exact fun row hrow hfound ↦ hany (List.any_eq_true.mpr ⟨row, hrow, hfound⟩)
    rw [hnone]
    refine ⟨_, rfl, flushes_added s ?_⟩
    rw [List.any_eq_false]
    intro row hrow hclash
    rcases of_decide_eq_true hclash with hid | hplace
    · exact hfresh (List.mem_map.mpr ⟨row, hrow, hid⟩)
    · exact hany (List.any_eq_true.mpr ⟨row, hrow, decide_eq_true hplace⟩)

/-! ## What a unit of work that raises leaves behind -/

theorem keeps_insertRow (row : FindingRow) : Effect.Keeps stored (insertRow row) := by
  refine Effect.Keeps.get.bind fun s ↦ ?_
  split_ifs
  · exact .raise _
  · exact .modify fun _ ↦ rfl

theorem keeps_updateRow (row : FindingRow) : Effect.Keeps stored (updateRow row) :=
  .modify fun _ ↦ rfl

theorem keeps_flush : Effect.Keeps stored flush := by
  refine Effect.Keeps.get.bind fun s ↦ ?_
  refine (Effect.Keeps.foldl (fun _ row ↦ keeps_updateRow row) _ _).bind fun _ ↦ ?_
  refine (Effect.Keeps.foldl (fun _ row ↦ keeps_insertRow row) _ _).bind fun _ ↦ ?_
  exact .modify fun _ ↦ rfl

theorem keeps_query (p : FindingRow → Bool) : Effect.Keeps stored (query p) :=
  keeps_flush.bind fun _ ↦ Effect.Keeps.get.bind fun _ ↦ .pure _

theorem keeps_upsert (finding : UnifiedFinding) : Effect.Keeps stored (upsert finding) := by
  refine (keeps_query _).bind fun rows ↦ (Effect.Keeps.ofExcept _).bind fun existing ↦ ?_
  cases existing with
  | none => exact .modify fun _ ↦ rfl
  | some row => exact .modify fun _ ↦ rfl

theorem Call.keeps_run (call : Call) : Effect.Keeps stored call.run := by
  cases call with
  | upsert finding => exact keeps_upsert finding
  | forScan scanId => exact (keeps_query _).bind fun _ ↦ .pure _
  | raise e => exact .raise e

theorem keeps_runCalls (calls : List Call) : Effect.Keeps stored (runCalls calls) :=
  Effect.Keeps.foldl (fun _ call ↦ call.keeps_run) () calls

/-- A unit of work that raises has raised before anything was stored. -/
theorem unitOfWork_of_error {body : Work Unit} (hbody : Effect.Keeps stored body) {e : PyError}
    (h : unitOfWork body s = (.error e, s')) : s' = start s.stored := by
  have hhandled : ∀ {e' s₁}, (do body; commit; close : Work Unit) s = (.error e', s₁) →
      s' = start s₁.stored := by
    intro e' s₁ herror
    rw [unitOfWork, Effect.recover_of_error herror] at h
    exact (congrArg Prod.snd h).symm
  rcases hrun : body s with ⟨r, s₁⟩
  have hs₁ : s₁.stored = s.stored := by simpa [hrun] using hbody s
  cases r with
  | error e' => rw [hhandled (Effect.bind_of_error hrun _), hs₁]
  | ok u =>
      rcases hflush : flush s₁ with ⟨r, s₂⟩
      have hs₂ : s₂.stored = s₁.stored := by simpa [hflush] using keeps_flush s₁
      cases r with
      | error e' =>
          have hcommit : commit s₁ = (.error e', s₂) := Effect.bind_of_error hflush _
          have herror := (Effect.bind_of_ok hrun fun _ ↦ commit >>= fun _ ↦ close).trans
            (Effect.bind_of_error hcommit fun _ ↦ close)
          rw [hhandled herror, hs₂, hs₁]
      | ok v =>
          have hcommit : commit s₁ = (.ok (), { s₂ with stored := s₂.tables }) :=
            Effect.bind_of_ok hflush _
          have hok := (Effect.bind_of_ok hrun fun _ ↦ commit >>= fun _ ↦ close).trans
            (Effect.bind_of_ok hcommit fun _ ↦ close)
          rw [unitOfWork, Effect.recover_of_ok hok] at h
          exact absurd (congrArg Prod.fst h) (by simp)

theorem runUnit_of_error {db : Database} {calls : List Call} {e : PyError}
    (h : (runUnit db calls).1 = .error e) : (runUnit db calls).2 = db := by
  have hrun : unitOfWork (runCalls calls) (start db) =
      (.error e, (unitOfWork (runCalls calls) (start db)).2) := Prod.ext h rfl
  have hstart := unitOfWork_of_error (keeps_runCalls calls) hrun
  exact congrArg stored hstart

/-! ## What a unit of work that commits writes -/

theorem nodup_of_append {more : List UnifiedFinding}
    (hids : ((writes ++ more).map UnifiedFinding.id).Nodup) :
    (writes.map UnifiedFinding.id).Nodup :=
  hids.sublist ((List.sublist_append_left writes more).map UnifiedFinding.id)

theorem fresh_of_nodup (hids : ((writes ++ [finding]).map UnifiedFinding.id).Nodup) :
    finding.id ∉ (tableOf writes).map FindingRow.id := by
  rw [List.map_append, List.nodup_append] at hids
  exact fun hmem ↦ hids.2.2 _ ((ids_sublist writes).subset hmem) _ List.mem_cons_self rfl

theorem upsert_tableOf (h : Flushes s (tableOf writes))
    (hids : ((writes ++ [finding]).map UnifiedFinding.id).Nodup) :
    ∃ s', upsert finding s = (.ok (), s') ∧ Flushes s' (tableOf (writes ++ [finding])) := by
  rw [tableOf_concat]
  exact upsert_spec h ((nodup_of_append hids).sublist (ids_sublist writes))
    (length_filter_place_le writes) (fresh_of_nodup hids)

theorem Call.run_spec {call : Call} (h : Flushes s (tableOf writes))
    (hids : ((writes ++ call.writes).map UnifiedFinding.id).Nodup)
    (hrun : call.run s = (.ok (), s')) : Flushes s' (tableOf (writes ++ call.writes)) := by
  cases call with
  | upsert finding =>
      obtain ⟨s'', hupsert, hflushes⟩ := upsert_tableOf h hids
      obtain ⟨-, rfl⟩ := Effect.ok_unique hupsert hrun
      exact hflushes
  | forScan scanId =>
      rw [Call.run, Effect.bind_of_ok (query_of_flushes h _)] at hrun
      obtain ⟨-, rfl⟩ := Effect.eq_of_pure hrun
      rw [Call.writes, List.append_nil]
      exact flushes_flushed s _
  | raise e => exact absurd (congrArg Prod.fst hrun) (by simp [Call.run, Effect.raise])

theorem runCalls_spec {calls : List Call} (h : Flushes s (tableOf writes))
    (hids : ((writes ++ calls.flatMap Call.writes).map UnifiedFinding.id).Nodup)
    (hrun : runCalls calls s = (.ok (), s')) :
    Flushes s' (tableOf (writes ++ calls.flatMap Call.writes)) := by
  induction calls generalizing s writes with
  | nil =>
      obtain ⟨-, rfl⟩ := Effect.eq_of_pure hrun
      simpa using h
  | cons call calls ih =>
      rw [List.flatMap_cons, ← List.append_assoc] at hids ⊢
      obtain ⟨u, s₁, hcall, hrest⟩ := Effect.exists_of_bind_ok hrun
      exact ih (call.run_spec h (nodup_of_append hids) hcall) hids hrest

/-- What was stored before and what the unit wrote make up the table. -/
theorem runUnit_of_ok {db : Database} {calls : List Call} {u : Unit}
    (hdb : db.findings = tableOf writes)
    (hids : ((writes ++ calls.flatMap Call.writes).map UnifiedFinding.id).Nodup)
    (h : (runUnit db calls).1 = .ok u) :
    (runUnit db calls).2.findings = tableOf (writes ++ calls.flatMap Call.writes) := by
  rcases hrun : (do runCalls calls; commit; close : Work Unit) (start db) with ⟨r, s'⟩
  cases r with
  | error e =>
      have hraised : (runUnit db calls).1 = .error e := by
        rw [runUnit, unitOfWork, Effect.recover_of_error hrun]
        rfl
      rw [hraised] at h
      exact absurd h (by simp)
  | ok v =>
      have hstored : (runUnit db calls).2 = s'.stored := by
        rw [runUnit, unitOfWork, Effect.recover_of_ok hrun]
      obtain ⟨⟨⟩, s₁, hcalls, hrest⟩ := Effect.exists_of_bind_ok hrun
      have hstart : Flushes (start db) (tableOf writes) := hdb ▸ flushes_start db
      have hflush := runCalls_spec hstart hids hcalls
      have hcommit : commit s₁ = (.ok (), { s₁.flushed (tableOf (writes ++
          calls.flatMap Call.writes)) with stored := (s₁.flushed (tableOf (writes ++
            calls.flatMap Call.writes))).tables }) := Effect.bind_of_ok hflush _
      rw [Effect.bind_of_ok hcommit] at hrest
      have hend : _ = s' := congrArg Prod.snd hrest
      rw [hstored, ← hend]
      rfl

theorem findings_runUnits (units : List (List Call)) (db : Database)
    (hdb : db.findings = tableOf writes)
    (hids : ((writes ++ committed db units).map UnifiedFinding.id).Nodup) :
    (runUnits db units).findings = tableOf (writes ++ committed db units) := by
  induction units generalizing db writes with
  | nil =>
      rw [committed, List.append_nil]
      exact hdb
  | cons calls units ih =>
      rw [committed, ← List.append_assoc] at hids ⊢
      change (runUnits (runUnit db calls).2 units).findings = _
      cases hrun : (runUnit db calls).1 with
      | error e =>
          rw [hrun] at hids
          have hsame := runUnit_of_error hrun
          rw [hsame] at hids ⊢
          simp only [List.append_nil] at hids ⊢
          exact ih db hdb hids
      | ok u =>
          rw [hrun] at hids
          exact ih _ (runUnit_of_ok hdb (nodup_of_append hids) hrun) hids

/-! ## The writes of one list -/

theorem runCalls_upserts {findings : List UnifiedFinding} (h : Flushes s (tableOf writes))
    (hids : ((writes ++ findings).map UnifiedFinding.id).Nodup) :
    ∃ s', runCalls (findings.map Call.upsert) s = (.ok (), s') := by
  induction findings generalizing s writes with
  | nil => exact ⟨s, rfl⟩
  | cons finding findings ih =>
      rw [List.append_cons] at hids
      obtain ⟨s₁, hupsert, hflushes⟩ := upsert_tableOf h (nodup_of_append hids)
      obtain ⟨s', hrest⟩ := ih hflushes hids
      exact ⟨s', (Effect.bind_of_ok hupsert _).trans hrest⟩

theorem foldlM_upsertFinding {findings : List UnifiedFinding} {db : Database}
    (hdb : db.findings = tableOf writes)
    (hids : ((writes ++ findings).map UnifiedFinding.id).Nodup) :
    ∃ db', findings.foldlM (fun db f ↦ db.upsertFinding f) db = .ok db' ∧
      db'.findings = tableOf (writes ++ findings) := by
  induction findings generalizing db writes with
  | nil => exact ⟨db, rfl, by rw [List.append_nil, hdb]⟩
  | cons finding findings ih =>
      rw [List.append_cons] at hids ⊢
      have hfresh := fresh_of_nodup (nodup_of_append hids)
      obtain ⟨db₁, hok⟩ : ∃ db₁, db.upsertFinding finding = .ok db₁ := by
        unfold upsertFinding
        split_ifs with hany hid
        · exact ⟨_, rfl⟩
        · obtain ⟨row, hrow, hid⟩ := List.any_eq_true.mp hid
          exact absurd (List.mem_map.mpr ⟨row, hdb ▸ hrow, of_decide_eq_true hid⟩) hfresh
        · exact ⟨_, rfl⟩
      have hfindings : db₁.findings = tableOf (writes ++ [finding]) := by
        rw [findings_upsertFinding hok, tableOf_concat, hdb]
      obtain ⟨db', hrest, hdb'⟩ := ih hfindings hids
      exact ⟨db', by rw [List.foldlM_cons, hok]; exact hrest, hdb'⟩

/-- Writing a list of new findings in a session commits, with the table that the repositories'
own unit of work has. -/
theorem runUnit_upserts {findings : List UnifiedFinding} {db : Database}
    (hdb : db.findings = tableOf writes)
    (hids : ((writes ++ findings).map UnifiedFinding.id).Nodup) :
    ∃ db', findings.foldlM (fun db f ↦ db.upsertFinding f) db = .ok db' ∧
      (runUnit db (findings.map Call.upsert)).1 = .ok () ∧
      (runUnit db (findings.map Call.upsert)).2.findings = db'.findings := by
  obtain ⟨db', hwrite, hdb'⟩ := foldlM_upsertFinding hdb hids
  have hwrites : (findings.map Call.upsert).flatMap Call.writes = findings := by
    rw [List.flatMap_map]
    exact List.flatMap_singleton' findings
  have hstart : Flushes (start db) (tableOf writes) := hdb ▸ flushes_start db
  obtain ⟨s, hcalls⟩ := runCalls_upserts hstart hids
  have hflush := runCalls_spec hstart (by rwa [hwrites]) hcalls
  have hcommit := Effect.bind_of_ok hflush fun _ ↦ Effect.modify fun s ↦
    { s with stored := s.tables }
  have hbody := (Effect.bind_of_ok hcalls fun _ ↦ commit >>= fun _ ↦ close).trans
    (Effect.bind_of_ok hcommit fun _ ↦ close)
  have hok : (runUnit db (findings.map Call.upsert)).1 = .ok () := by
    rw [runUnit, unitOfWork, Effect.recover_of_ok hbody]
  refine ⟨db', hwrite, hok, ?_⟩
  rw [runUnit_of_ok hdb (by rwa [hwrites]) hok, hwrites, hdb']

/-! ## Reading -/

theorem forScan_none (rows : List FindingRow) :
    forScan rows none = rows.map FindingRow.payload := by
  simp [forScan]

/-- The repository's own reading is an answer, with rows of one score as they were written. -/
theorem answers_findingsForScan (db : Database) (scanId : String) :
    ∃ rows, Answers db scanId rows ∧ db.findingsForScan scanId = forScan rows none := by
  refine ⟨(db.findings.filter fun row : FindingRow ↦ row.scanId = scanId).insertionSort
    fun r r' ↦ r'.riskScore ≤ r.riskScore, ⟨List.perm_insertionSort _ _, ?_⟩,
    (forScan_none _).symm⟩
  have : Std.Total fun r r' : FindingRow ↦ r'.riskScore ≤ r.riskScore :=
    ⟨fun r r' ↦ le_total r'.riskScore r.riskScore⟩
  have : IsTrans FindingRow fun r r' ↦ r'.riskScore ≤ r.riskScore :=
    ⟨fun r r' r'' h h' ↦ h'.trans h⟩
  exact List.pairwise_insertionSort _ _

theorem lastWins_of_answers {db : Database} {scanId : String} {answer : List FindingRow}
    (hdb : db.findings = tableOf writes) (h : Answers db scanId answer) :
    LastWins writes scanId answer := by
  have hmirrors : ∀ row ∈ answer, row.scanId = scanId ∧ row.place = placeOf row.payload ∧
      row.riskScore = row.payload.riskScore := by
    intro row hrow
    obtain ⟨hmem, hscan⟩ := List.mem_filter.mp (h.perm.subset hrow)
    exact ⟨of_decide_eq_true hscan, mirrors_tableOf writes row (hdb ▸ hmem)⟩
  refine ⟨fun fingerprint ↦ ?_, ?_, fun m ↦ rfl⟩
  · have hplace : (answer.filter fun row ↦ row.place = (scanId, fingerprint)).Perm
        ((tableOf writes).filter fun row ↦ row.place = (scanId, fingerprint)) := by
      refine (h.perm.filter _).trans (List.Perm.of_eq ?_)
      rw [hdb, List.filter_filter]
      refine List.filter_congr fun row _ ↦ ?_
      by_cases hscan : row.scanId = scanId <;> simp [FindingRow.place, hscan]
    have hpayloads := hplace.map FindingRow.payload
    rw [holdsLast_tableOf writes (scanId, fingerprint)] at hpayloads
    have hfiltered : (forScan answer none).filter (·.fingerprint = fingerprint) =
        (answer.filter fun row ↦ row.place = (scanId, fingerprint)).map FindingRow.payload := by
      rw [forScan_none, List.filter_map]
      refine congrArg (List.map FindingRow.payload) (List.filter_congr fun row hrow ↦ ?_)
      obtain ⟨hscan, hplace, -⟩ := hmirrors row hrow
      have hfingerprint : row.fingerprint = row.payload.fingerprint := congrArg Prod.snd hplace
      simp [FindingRow.place, hscan, hfingerprint]
    rw [hfiltered]
    unfold lastWrite
    cases hlast : Table.last placeOf writes (scanId, fingerprint) with
    | none =>
        rw [hlast] at hpayloads
        exact List.perm_nil.mp hpayloads
    | some f =>
        rw [hlast] at hpayloads
        exact List.perm_singleton.mp hpayloads
  · rw [forScan_none, List.pairwise_map]
    refine h.ordered.imp_of_mem fun {row row'} hrow hrow' hle ↦ ?_
    rwa [← (hmirrors row hrow).2.2, ← (hmirrors row' hrow').2.2]

/-- Whatever units of work came before, a scan reads as the map of the last writes, and a unit that
raises leaves everything as it was. -/
theorem lastWins_runUnits {db : Database} (hdb : db.findings = []) (units : List (List Call))
    (hids : ((committed db units).map UnifiedFinding.id).Nodup) :
    (∀ scanId rows, Answers (runUnits db units) scanId rows →
      LastWins (committed db units) scanId rows) ∧
    ∀ calls e, (runUnit (runUnits db units) calls).1 = .error e →
      (runUnit (runUnits db units) calls).2 = runUnits db units := by
  have hempty : db.findings = tableOf [] := hdb
  have hrows := findings_runUnits units db hempty hids
  rw [List.nil_append] at hrows
  exact ⟨fun scanId rows ↦ lastWins_of_answers hrows, fun calls e ↦ runUnit_of_error⟩

end Session

def nightlyFinding : UnifiedFinding where
  id := "a"
  tenantId := "t"
  scanId := "s"
  targetId := "g"
  fingerprint := "f"
  title := "Cookie without Secure"
  category := "insecure_cookie"
  severity := .low
  confidence := .tentative
  riskScore := 20
  cwe := [614]
  owasp := []
  host := "app.example"
  port := 443
  endpoint := "/"
  method := none
  parameter := none
  affectedUrls := []
  description := ""
  remediation := ""
  references := []
  engines := []
  detectors := []
  observationIds := []
  evidence := []
  firstSeen := 0
  lastSeen := 0

/-- Two findings, the first of them once more, and a unit that raises. -/
def nightlyUnits : List (List Session.Call) :=
  [[.upsert nightlyFinding, .upsert { nightlyFinding with id := "b", fingerprint := "e" }],
    [.forScan "s", .upsert { nightlyFinding with id := "c", severity := .high, riskScore := 70 }],
    [.upsert { nightlyFinding with id := "d", fingerprint := "h" }, .raise .valueError]]

namespace Session

theorem nightlyUnits_nodup :
    ((committed empty nightlyUnits).map UnifiedFinding.id).Nodup := by
  have hids : (committed empty nightlyUnits).map UnifiedFinding.id = ["a", "b", "c"] := by
    decide +kernel
  rw [hids]
  decide

theorem lastWins_nightlyUnits :
    (∀ scanId rows, Answers (runUnits empty nightlyUnits) scanId rows →
      LastWins (committed empty nightlyUnits) scanId rows) ∧
    ∀ calls e, (runUnit (runUnits empty nightlyUnits) calls).1 = .error e →
      (runUnit (runUnits empty nightlyUnits) calls).2 = runUnits empty nightlyUnits :=
  lastWins_runUnits rfl nightlyUnits nightlyUnits_nodup

end Session

end Vantage.Persistence
