import Vantage.Scan.Dates

/-!
# Re-scans

The scans of a target are run one after the other, and not all of them are
completed. A finding that stays keeps the date of the scan that found it first.
-/

namespace Vantage.Scan

open Engines Findings Persistence

variable {σ : Type} {time : σ → Time} {tenantId targetId : String}
  {history earlier later : List (Episode σ)} {e e' : Episode σ} {p p' : Platform σ}
  {f f' : UnifiedFinding}

/-! ## Histories -/

/-- Between the scans, the completed scans of the target and the findings of its
scans are left alone. -/
structure Elsewhere (time : σ → Time) (targetId : String) (history : List (Episode σ))
    (p p' : Platform σ) : Prop where
  scans : ∀ row, row.payload.targetId = targetId → row.state = .completed →
    (row ∈ p'.db.scans ↔ row ∈ p.db.scans)
  findings : ∀ e ∈ history, ∀ row, row.scanId = e.scan.id →
    (row ∈ p'.db.findings ↔ row ∈ p.db.findings)
  later : time p.world ≤ time p'.world

/-- The scan can be the next one of the target. -/
structure Follows (time : σ → Time) (tenantId targetId : String) (history : List (Episode σ))
    (e : Episode σ) : Prop where
  ofTenant : e.scan.tenantId = tenantId
  ofTarget : e.scan.targetId = targetId
  target : e.target.id = targetId
  new : e.New
  others : ∀ e' ∈ history, e'.scan.id ≠ e.scan.id
  created : ∀ e' ∈ history, e'.scan.createdAt < e.scan.createdAt
  timely : Timely time e.orchestrator e.target

/-- The scans of a target in the order in which they were run, and the platform then. -/
inductive Rescans (time : σ → Time) (tenantId targetId : String) :
    List (Episode σ) → Platform σ → Prop
  | start {p : Platform σ} (h : ∀ row ∈ p.db.scans, row.payload.targetId = targetId →
      row.state ≠ .completed) : Rescans time tenantId targetId [] p
  | elsewhere {history : List (Episode σ)} {p p' : Platform σ}
      (h : Rescans time tenantId targetId history p)
      (helsewhere : Elsewhere time targetId history p p') :
      Rescans time tenantId targetId history p'
  | scan {history : List (Episode σ)} {e : Episode σ}
      (h : Rescans time tenantId targetId history e.before)
      (hnext : Follows time tenantId targetId history e) :
      Rescans time tenantId targetId (history ++ [e]) e.after

/-! ## The law -/

def completed (history : List (Episode σ)) : List (Episode σ) := history.filter (·.Completed)

/-- The findings that the scan has stored when it ends. -/
def Episode.findings (e : Episode σ) : List UnifiedFinding := e.after.db.findingsForScan e.scan.id

/-- What the store says about the scans of a history. -/
structure FirstSeenSurvives (db : Database) (history : List (Episode σ)) : Prop where
  /-- A finding of two consecutive completed scans has one first date. -/
  survives : ∀ earlier e e' later, completed history = earlier ++ e :: e' :: later →
    ∀ f ∈ db.findingsForScan e.scan.id, ∀ f' ∈ db.findingsForScan e'.scan.id,
      f'.fingerprint = f.fingerprint → f'.firstSeen = f.firstSeen
  /-- It is that of the first scan of an unbroken chain of completed scans with the finding. -/
  earliest : ∀ earlier first chain later fingerprint,
    completed history = earlier ++ (first :: chain) ++ later →
    (∀ e ∈ earlier.getLast?, ∀ f ∈ db.findingsForScan e.scan.id, f.fingerprint ≠ fingerprint) →
    (∀ e ∈ first :: chain, ∃ f ∈ db.findingsForScan e.scan.id, f.fingerprint = fingerprint) →
    ∀ e ∈ first :: chain, ∀ f ∈ db.findingsForScan e.scan.id, f.fingerprint = fingerprint →
      IsLeast (first.times fingerprint) f.firstSeen
  /-- Scans that have failed are no exception. -/
  ordered : ∀ e ∈ history, ∀ f ∈ db.findingsForScan e.scan.id, f.firstSeen ≤ f.lastSeen

/-! ## One scan after another -/

/-- The dates of a scan's findings beside those of the completed scan before it. -/
structure Link (time : σ → Time) (last : Option (Episode σ)) (e : Episode σ) : Prop where
  one : ∀ f ∈ e.findings, ∀ f' ∈ e.findings, f.fingerprint = f'.fingerprint → f = f'
  past : ∀ f ∈ e.findings, f.firstSeen ≤ time e.after.world
  ordered : ∀ f ∈ e.findings, f.firstSeen ≤ f.lastSeen
  carried : ∀ e' ∈ last, ∀ f ∈ e.findings, ∀ f' ∈ e'.findings, f'.fingerprint = f.fingerprint →
    f.firstSeen = f'.firstSeen
  first : ∀ f ∈ e.findings, (∀ e' ∈ last, ∀ f' ∈ e'.findings, f'.fingerprint ≠ f.fingerprint) →
    IsLeast (e.times f.fingerprint) f.firstSeen

/-- What a history has left in the store. -/
structure Ledger (time : σ → Time) (tenantId targetId : String) (history : List (Episode σ))
    (p : Platform σ) : Prop where
  ofTenant : ∀ e ∈ history, e.scan.tenantId = tenantId
  ofTarget : ∀ e ∈ history, e.scan.targetId = targetId
  created : history.Pairwise fun e e' ↦ e.scan.createdAt < e'.scan.createdAt
  rows : ∀ row ∈ p.db.scans, row.payload.targetId = targetId → row.state = .completed →
    ∃ e ∈ history, e.Completed ∧ RowOf e.scan row
  stored : ∀ e ∈ history, e.Completed →
    ∃ row ∈ p.db.scans, row.state = .completed ∧ RowOf e.scan row
  findings : ∀ e ∈ history, ∀ row, row.scanId = e.scan.id →
    (row ∈ p.db.findings ↔ row ∈ e.after.db.findings)
  later : ∀ e ∈ history, time e.after.world ≤ time p.world
  links : ∀ earlier e later, history = earlier ++ e :: later →
    Link time (completed earlier).getLast? e

theorem mem_findingsForScan {db : Database} {i : String} :
    f ∈ db.findingsForScan i ↔ ∃ row ∈ db.findings, row.scanId = i ∧ row.payload = f := by
  unfold Database.findingsForScan
  simp only [List.mem_map, List.mem_insertionSort, List.mem_filter, decide_eq_true_iff, and_assoc]

theorem Ledger.mem_findings_iff (h : Ledger time tenantId targetId history p) (he : e ∈ history) :
    f ∈ p.db.findingsForScan e.scan.id ↔ f ∈ e.findings := by
  rw [Episode.findings, mem_findingsForScan, mem_findingsForScan]
  constructor
  · rintro ⟨row, hrow, hid, hpayload⟩
    exact ⟨row, (h.findings e he row hid).mp hrow, hid, hpayload⟩
  · rintro ⟨row, hrow, hid, hpayload⟩
    exact ⟨row, (h.findings e he row hid).mpr hrow, hid, hpayload⟩

theorem Ledger.link (h : Ledger time tenantId targetId history p) (he : e ∈ history) :
    ∃ last, Link time last e := by
  obtain ⟨earlier, later, hsplit⟩ := List.append_of_mem he
  exact ⟨_, h.links earlier e later hsplit⟩

theorem mem_completed : e ∈ completed history ↔ e ∈ history ∧ e.Completed := by
  rw [completed, List.mem_filter, decide_eq_true_iff]

/-- The last completed scan is the one that was created last. -/
theorem createdAt_le_last (h : history.Pairwise fun e e' ↦ e.scan.createdAt < e'.scan.createdAt)
    (hlast : (completed history).getLast? = some e') (he : e ∈ completed history) :
    e = e' ∨ e.scan.createdAt < e'.scan.createdAt := by
  have hsorted : (completed history).Pairwise fun e e' ↦ e.scan.createdAt < e'.scan.createdAt :=
    h.filter _
  obtain ⟨front, hfront⟩ := List.getLast?_eq_some_iff.mp hlast
  rw [hfront] at hsorted he
  rcases List.mem_append.mp he with he | he
  · exact Or.inr ((List.pairwise_append.mp hsorted).2.2 e he e' List.mem_cons_self)
  · exact Or.inl (List.mem_singleton.mp he)

/-- The completed scans of the history are what the next scan can be compared with. -/
theorem Ledger.candidate (h : Ledger time tenantId targetId history e.before)
    (hnext : Follows time tenantId targetId history e) (he' : e' ∈ completed history) :
    ∃ row, Candidate e.before.db e.scan e.target row ∧ RowOf e'.scan row := by
  obtain ⟨hmem, hcompleted⟩ := mem_completed.mp he'
  obtain ⟨row, hrow, hstate, hof⟩ := h.stored e' hmem hcompleted
  refine ⟨row, ⟨hrow, ?_, hstate, ?_, ?_⟩, hof⟩
  · rw [hof.tenantId, h.ofTenant e' hmem, hnext.ofTenant]
  · rw [hof.payload_targetId, h.ofTarget e' hmem, hnext.target]
  · rw [hof.payload_id]
    exact hnext.others e' hmem

/-- The next scan is compared with the last completed one. -/
theorem Ledger.mem_previous_iff (h : Ledger time tenantId targetId history e.before)
    (hnext : Follows time tenantId targetId history e) {previous : List UnifiedFinding}
    (hprevious : Previous e.before.db e.scan e.target previous) :
    f ∈ previous ↔ ∃ e' ∈ (completed history).getLast?, f ∈ e'.findings := by
  cases hprevious with
  | none hnone =>
      have hempty : completed history = [] := by
        rw [List.eq_nil_iff_forall_not_mem]
        intro e' he'
        obtain ⟨row, hrow, -⟩ := h.candidate hnext he'
        exact hnone row hrow
      simp [hempty]
  | @latest row hrow hlatest =>
      obtain ⟨e₁, he₁, hcompleted, hof⟩ := h.rows row hrow.stored
        (hrow.targetId.trans hnext.target) hrow.completed
      have hmem := mem_completed.mpr ⟨he₁, hcompleted⟩
      obtain ⟨e₂, hlast⟩ : ∃ e₂, (completed history).getLast? = some e₂ :=
        ⟨_, List.getLast?_eq_some_getLast (List.ne_nil_of_mem hmem)⟩
      obtain ⟨row₂, hrow₂, hof₂⟩ := h.candidate hnext (List.mem_of_getLast? hlast)
      have hle := hlatest row₂ hrow₂
      rw [hof.createdAt, hof₂.createdAt] at hle
      obtain rfl : e₁ = e₂ :=
        (createdAt_le_last h.created hlast hmem).resolve_right (not_lt.mpr hle)
      rw [hof.payload_id, h.mem_findings_iff he₁, hlast]
      simp

/-- The findings of a scan that has stored none. -/
theorem findings_of_silent (hnew : e.New) (h : Unreported time e.scan e.before e.after) :
    f ∉ e.findings := by
  rw [Episode.findings, mem_findingsForScan]
  rintro ⟨row, hrow, hid, -⟩
  rw [h.unstored] at hrow
  exact hnew.findings row hrow hid

/-- The findings of a scan are those that the report has stored. -/
theorem mem_findings_of_stored (hnew : e.New) {findings : List UnifiedFinding}
    (h : Stored time e.scan findings e.before e.after)
    (hscanId : ∀ f ∈ findings, f.scanId = e.scan.id) : f ∈ e.findings ↔ f ∈ findings := by
  rw [Episode.findings, mem_findingsForScan, h.stored]
  constructor
  · rintro ⟨row, hrow, hid, rfl⟩
    rcases List.mem_append.mp hrow with hrow | hrow
    · exact absurd hid (hnew.findings row hrow)
    · obtain ⟨f, hf, rfl⟩ := List.mem_map.mp hrow
      exact hf
  · intro hf
    exact ⟨Database.newFindingRow f, List.mem_append_right _ (List.mem_map_of_mem hf),
      hscanId f hf, rfl⟩

/-- The dates of the next scan. -/
theorem Ledger.link_next (h : Ledger time tenantId targetId history e.before)
    (hnext : Follows time tenantId targetId history e) :
    Link time (completed history).getLast? e := by
  cases outcome hnext.new hnext.timely with
  | silent hsilent =>
      have hnone : ∀ f, f ∉ e.findings := fun f ↦ findings_of_silent hnext.new hsilent
      exact ⟨fun f hf ↦ absurd hf (hnone f), fun f hf ↦ absurd hf (hnone f),
        fun f hf ↦ absurd hf (hnone f), fun e' _ f hf ↦ absurd hf (hnone f),
        fun f hf ↦ absurd hf (hnone f)⟩
  | @reported findings hstored hcorrelated =>
      obtain ⟨previous, hprevious, hdates⟩ := hcorrelated.dates
      have hmem : ∀ f, f ∈ e.findings ↔ f ∈ findings := fun f ↦
        mem_findings_of_stored hnext.new hstored hcorrelated.scanId
      have hbefore : ∀ f, f ∈ previous ↔ ∃ e' ∈ (completed history).getLast?, f ∈ e'.findings :=
        fun f ↦ h.mem_previous_iff hnext hprevious
      have hlast : ∀ e' ∈ (completed history).getLast?, e' ∈ history := fun e' he' ↦
        (mem_completed.mp (List.mem_of_getLast? he')).1
      have hold : ∀ f ∈ previous, f.firstSeen ≤ time e.before.world := by
        intro f hf
        obtain ⟨e', he', hf'⟩ := (hbefore f).mp hf
        obtain ⟨last, hlink⟩ := h.link (hlast e' he')
        exact (hlink.past f hf').trans (h.later e' (hlast e' he'))
      refine ⟨?_, ?_, ?_, ?_, ?_⟩
      · intro f hf f' hf' hkey
        exact List.inj_on_of_nodup_map hcorrelated.nodup ((hmem f).mp hf) ((hmem f').mp hf') hkey
      · intro f hf
        cases hdates f ((hmem f).mp hf) with
        | first _ _ _ hpast => exact hpast
        | again hprev _ hfirst _ =>
            rw [hfirst]
            exact (hold _ hprev).trans hstored.later
      · intro f hf
        cases hdates f ((hmem f).mp hf) with
        | first _ _ hle _ => exact hle
        | again hprev _ hfirst hlast =>
            rw [hfirst]
            exact (hold _ hprev).trans hlast
      · intro e' he' f hf f' hf' hkey
        cases hdates f ((hmem f).mp hf) with
        | first hnew _ _ _ => exact absurd hkey (hnew f' ((hbefore f').mpr ⟨e', he', hf'⟩))
        | @again old hprev hkey' hfirst _ =>
            obtain ⟨e'', he'', hold'⟩ := (hbefore old).mp hprev
            obtain rfl : e' = e'' := Option.mem_unique he' he''
            obtain ⟨last, hlink⟩ := h.link (hlast e' he')
            rw [hfirst, hlink.one old hold' f' hf' (hkey'.trans hkey.symm)]
      · intro f hf hnone
        cases hdates f ((hmem f).mp hf) with
        | first _ hleast _ _ => exact hleast
        | @again old hprev hkey' _ _ =>
            obtain ⟨e', he', hold'⟩ := (hbefore old).mp hprev
            exact absurd hkey' (hnone e' he' old hold')

/-! ## The ledger of a history -/

theorem ledger_start (h : ∀ row ∈ p.db.scans, row.payload.targetId = targetId →
    row.state ≠ .completed) : Ledger time tenantId targetId [] p where
  ofTenant := by simp
  ofTarget := by simp
  created := .nil
  rows row hrow htarget hstate := absurd hstate (h row hrow htarget)
  stored := by simp
  findings := by simp
  later := by simp
  links := by simp

theorem Ledger.elsewhere (h : Ledger time tenantId targetId history p)
    (helsewhere : Elsewhere time targetId history p p') :
    Ledger time tenantId targetId history p' where
  ofTenant := h.ofTenant
  ofTarget := h.ofTarget
  created := h.created
  rows row hrow htarget hstate :=
    h.rows row ((helsewhere.scans row htarget hstate).mp hrow) htarget hstate
  stored e he hcompleted := by
    obtain ⟨row, hrow, hstate, hof⟩ := h.stored e he hcompleted
    have htarget : row.payload.targetId = targetId := hof.payload_targetId.trans (h.ofTarget e he)
    exact ⟨row, (helsewhere.scans row htarget hstate).mpr hrow, hstate, hof⟩
  findings e he row hid := (helsewhere.findings e he row hid).trans (h.findings e he row hid)
  later e he := (h.later e he).trans helsewhere.later
  links := h.links

theorem Outcome.touched {o : Orchestrator σ} {scan : Scan} {target : Target}
    {observations : List Observation} (h : Outcome time o scan target observations p p') :
    Touched time scan p p' := by
  cases h with
  | silent h => exact h.toTouched
  | reported hstored _ => exact hstored.toTouched

theorem Outcome.concluded {o : Orchestrator σ} {scan : Scan} {target : Target}
    {observations : List Observation} (h : Outcome time o scan target observations p p')
    (hopen : Incomplete scan p) : Concluded scan p' := by
  cases h with
  | silent h => exact (h.incomplete hopen).concluded
  | reported hstored _ => exact hstored.concluded

theorem Ledger.scan (h : Ledger time tenantId targetId history e.before)
    (hnext : Follows time tenantId targetId history e) :
    Ledger time tenantId targetId (history ++ [e]) e.after := by
  have houtcome := outcome hnext.new hnext.timely
  have htouched := houtcome.touched
  have hown := htouched.own hnext.new.rows
  have hlast : ∀ {e'}, e' ∈ history ++ [e] → e' ∈ history ∨ e' = e := fun he' ↦
    (List.mem_append.mp he').imp_right List.mem_singleton.mp
  refine ⟨?_, ?_, ?_, ?_, ?_, ?_, ?_, ?_⟩
  · intro e' he'
    rcases hlast he' with he' | rfl
    · exact h.ofTenant e' he'
    · exact hnext.ofTenant
  · intro e' he'
    rcases hlast he' with he' | rfl
    · exact h.ofTarget e' he'
    · exact hnext.ofTarget
  · refine List.pairwise_append.mpr ⟨h.created, List.pairwise_singleton _ _, ?_⟩
    intro e' he' e'' he''
    rw [List.mem_singleton.mp he'']
    exact hnext.created e' he'
  · intro row hrow htarget hstate
    by_cases hid : row.id = e.scan.id
    · have hcompleted : e.Completed :=
        houtcome.concluded hnext.new.incomplete row hrow hid hstate
      exact ⟨e, List.mem_append_right _ List.mem_cons_self, hcompleted, hown row hrow hid⟩
    · obtain ⟨e', he', hcompleted, hof⟩ :=
        h.rows row ((htouched.scans row hid).mp hrow) htarget hstate
      exact ⟨e', List.mem_append_left _ he', hcompleted, hof⟩
  · intro e' he' hcompleted
    rcases hlast he' with he' | rfl
    · obtain ⟨row, hrow, hstate, hof⟩ := h.stored e' he' hcompleted
      have hid : row.id ≠ e.scan.id := hof.id.symm ▸ hnext.others e' he'
      exact ⟨row, (htouched.scans row hid).mpr hrow, hstate, hof⟩
    · obtain ⟨row, hrow, hstate⟩ := Option.map_eq_some_iff.mp hcompleted
      have hmem := List.mem_of_find?_eq_some hrow
      have hid : row.id = e'.scan.id := by simpa using List.find?_some hrow
      exact ⟨row, hmem, hstate, hown row hmem hid⟩
  · intro e' he' row hid
    rcases hlast he' with he' | rfl
    · have hother : row.scanId ≠ e.scan.id := hid.symm ▸ hnext.others e' he'
      exact (htouched.findings row hother).trans (h.findings e' he' row hid)
    · exact Iff.rfl
  · intro e' he'
    rcases hlast he' with he' | rfl
    · exact (h.later e' he').trans htouched.later
    · exact le_rfl
  · intro earlier e' later hsplit
    induction later using List.reverseRecOn with
    | nil =>
        obtain ⟨rfl, hsingle⟩ := List.append_inj' hsplit rfl
        obtain rfl := (List.cons.inj hsingle).1
        exact h.link_next hnext
    | append_singleton later e'' _ =>
        rw [← List.cons_append, ← List.append_assoc] at hsplit
        exact h.links earlier e' later (List.append_inj' hsplit rfl).1

theorem ledger_of_rescans (h : Rescans time tenantId targetId history p) :
    Ledger time tenantId targetId history p := by
  induction h with
  | start hnone => exact ledger_start hnone
  | elsewhere _ helsewhere ih => exact ih.elsewhere helsewhere
  | scan _ hnext ih => exact ih.scan hnext

/-! ## Chains of completed scans -/

theorem Ledger.link_completed (h : Ledger time tenantId targetId history p)
    (hsplit : completed history = earlier ++ e :: later) : Link time earlier.getLast? e := by
  obtain ⟨front, back, hhistory, hfront, hback⟩ := List.filter_eq_append_iff.mp hsplit
  obtain ⟨failed, rest, rfl, hfailed, -, -⟩ := List.filter_eq_cons_iff.mp hback
  have hlink := h.links (front ++ failed) e rest (by rw [hhistory, List.append_assoc])
  have hnone : completed failed = [] := List.filter_eq_nil_iff.mpr hfailed
  have hcompleted : completed (front ++ failed) = earlier := by
    rw [completed, List.filter_append, hfront]
    exact (congrArg (earlier ++ ·) hnone).trans (List.append_nil _)
  rwa [hcompleted] at hlink

/-- Along an unbroken chain, the first date is that of the first scan. -/
theorem Ledger.earliest (h : Ledger time tenantId targetId history p) {first : Episode σ}
    {chain : List (Episode σ)} {fingerprint : String}
    (hsplit : completed history = earlier ++ (first :: chain) ++ later)
    (hnew : ∀ e ∈ earlier.getLast?, ∀ f ∈ e.findings, f.fingerprint ≠ fingerprint)
    (hchain : ∀ e ∈ first :: chain, ∃ f ∈ e.findings, f.fingerprint = fingerprint) :
    ∀ e ∈ first :: chain, ∀ f ∈ e.findings, f.fingerprint = fingerprint →
      IsLeast (first.times fingerprint) f.firstSeen := by
  induction chain using List.reverseRecOn generalizing later with
  | nil =>
      intro e he f hf hkey
      obtain rfl := List.mem_singleton.mp he
      rw [List.append_assoc] at hsplit
      subst hkey
      exact (h.link_completed hsplit).first f hf hnew
  | append_singleton chain last ih =>
      have hprefix : completed history = earlier ++ (first :: chain) ++ (last :: later) := by
        rw [hsplit]
        simp
      have hfront := ih hprefix fun e he ↦ hchain e
        (List.mem_append_left [last] he)
      intro e he f hf hkey
      rcases List.mem_append.mp (show e ∈ (first :: chain) ++ [last] from he) with he | he
      · exact hfront e he f hf hkey
      · obtain rfl := List.mem_singleton.mp he
        have hlink := h.link_completed hprefix
        obtain ⟨before, hbefore⟩ : ∃ before, (first :: chain).getLast? = some before :=
          ⟨_, List.getLast?_eq_some_getLast (List.cons_ne_nil _ _)⟩
        have hmem := List.mem_of_getLast? hbefore
        obtain ⟨g, hg, hgkey⟩ := hchain before (List.mem_append_left [e] hmem)
        have hlast : before ∈ (earlier ++ first :: chain).getLast? := by
          rw [List.getLast?_append, hbefore]
          rfl
        rw [hlink.carried before hlast f hf g hg (hgkey.trans hkey.symm)]
        exact hfront before hmem g hg hgkey

/-! ## A target that is scanned twice -/

/-- The clock is the state, and what is new is named after it. -/
def steadyId (w : Time) : String := String.ofList (List.replicate w.toNat 'f')

/-- An engine that finds the same in each run. -/
def steadyEngine : EngineAdapter Time where
  metadata := pure demoMetadata
  Prepared := Unit
  Outcome := Unit
  Raw := Unit
  healthCheck := pure .healthy
  prepareTarget _ := pure ()
  executeScan _ := pure ()
  collectResults _ := pure ()
  normalizeResults _ _ := fun w ↦
    (.ok [{ demoReport (steadyId w) "xss" .firm with observedAt := w }], w)
  cleanup _ := pure ()

def steadyOrchestrator : Orchestrator Time where
  env :=
    { clock := fun w ↦ (w, w + 1)
      newIds := fun w ↦ (fun _ ↦ steadyId w, w)
      regex := fun _ ↦ none
      loads := fun _ ↦ .ok .null
      digests := { demoDigests with sha256 := demoSha256 }
      evidenceVariable := none }
  registry :=
    { policy := demoPolicy
      engines := Dict.empty.set "zap"
        { manifest := demoManifest
          lock := { version := "2.16.1", license := "Apache-2.0" }
          metadata := demoMetadata
          adapter := some steadyEngine
          problems := []
          notes := [] } }
  plan _ _ _ := demoPlan
  risk _ := 25

def firstScan : Episode Time :=
  ⟨steadyOrchestrator, demoTarget, demoScan, ⟨⟨[], [], [], [], []⟩, 0⟩⟩

def secondScan : Episode Time :=
  ⟨steadyOrchestrator, demoTarget, { demoScan with id := "s'", createdAt := 1 }, firstScan.after⟩

theorem eq_steadyEngine {i : String} {x : EngineAdapter Time}
    (h : steadyOrchestrator.registry.adapterFor i = some x) : x = steadyEngine := by
  by_cases hi : i = "zap"
  · subst hi
    have hbound : steadyOrchestrator.registry.adapterFor "zap" = some steadyEngine := rfl
    exact (Option.some.inj (hbound.symm.trans h)).symm
  · have hnone : steadyOrchestrator.registry.adapterFor i = none := by
      unfold EngineRegistry.adapterFor
      have hget : steadyOrchestrator.registry.engines.get? i = none :=
        (Dict.get?_set_of_ne _ hi _).trans (Dict.get?_empty i)
      rw [hget]
    exact absurd (hnone.symm.trans h) (by simp)

theorem timely_steady : Timely (fun w ↦ w) steadyOrchestrator demoTarget where
  clock := ⟨fun _ ↦ le_rfl, fun w ↦ (lt_add_one w).le⟩
  newIds _ := le_rfl
  metadata i x hx := by
    rw [eq_steadyEngine hx]
    exact .pure _
  healthCheck i x hx := by
    rw [eq_steadyEngine hx]
    exact .pure _
  lifecycle i x hx request w := by
    rw [eq_steadyEngine hx]
    exact le_rfl
  observed i x hx request w observations w' hrun obs hobs := by
    rw [eq_steadyEngine hx] at hrun
    obtain ⟨rfl, rfl⟩ := Effect.ok_unique (show steadyEngine.lifecycle request w =
      (.ok [{ demoReport (steadyId w) "xss" .firm with observedAt := w }], w) from rfl) hrun
    rw [List.mem_singleton.mp hobs]
  factory _ h := absurd h (by simp [steadyOrchestrator])
  validate _ h := absurd h (by simp [steadyOrchestrator])
  available := .pure _
  complete _ := .pure _

theorem secondScan_clear : (∀ row ∈ firstScan.after.db.scans, row.id ≠ "s'") ∧
    ∀ row ∈ firstScan.after.db.findings, row.scanId ≠ "s'" := by
  decide +kernel

theorem rescans_steady : Rescans (fun w ↦ w) "t" "g" [firstScan, secondScan] secondScan.after := by
  have hstart : Rescans (fun w ↦ w) "t" "g" [] firstScan.before := .start (by simp [firstScan])
  have hfirst : Rescans (fun w ↦ w) "t" "g" [firstScan] firstScan.after :=
    hstart.scan
      { ofTenant := rfl, ofTarget := rfl, target := rfl
        new := ⟨by simp [firstScan], by simp [Incomplete, firstScan], by simp [firstScan]⟩
        others := by simp
        created := by simp
        timely := timely_steady }
  refine hfirst.scan (e := secondScan)
    { ofTenant := rfl, ofTarget := rfl, target := rfl, new := ?_, others := ?_, created := ?_,
      timely := timely_steady }
  · exact ⟨fun row hrow hid ↦ absurd hid (secondScan_clear.1 row hrow),
      fun row hrow hid ↦ absurd hid (secondScan_clear.1 row hrow), secondScan_clear.2⟩
  · simp [firstScan, secondScan, demoScan]
  · simp [firstScan, secondScan, demoScan]

/-! ## The dates -/

/-- First dates survive re-scans. -/
theorem firstSeen_survives (h : Rescans time tenantId targetId history p) :
    FirstSeenSurvives p.db history := by
  have hledger := ledger_of_rescans h
  have hmem : ∀ e ∈ completed history, ∀ f,
      f ∈ p.db.findingsForScan e.scan.id ↔ f ∈ e.findings :=
    fun e he f ↦ hledger.mem_findings_iff (mem_completed.mp he).1
  refine ⟨?_, ?_, ?_⟩
  · intro earlier e e' later hsplit f hf f' hf' hkey
    have hboth : e ∈ completed history ∧ e' ∈ completed history := by
      rw [hsplit]
      simp
    rw [hmem e hboth.1] at hf
    rw [hmem e' hboth.2] at hf'
    have hnext : completed history = (earlier ++ [e]) ++ e' :: later := by
      rw [hsplit]
      simp
    exact (hledger.link_completed hnext).carried e (by simp) f' hf' f hf hkey.symm
  · intro earlier first chain later fingerprint hsplit hnew hchain e he f hf hkey
    have hin : ∀ e ∈ first :: chain, e ∈ completed history := fun e he ↦ by
      rw [hsplit]
      exact List.mem_append_left _ (List.mem_append_right _ he)
    have hbefore : ∀ e ∈ earlier.getLast?, e ∈ completed history := fun e he ↦ by
      rw [hsplit, List.append_assoc]
      exact List.mem_append_left _ (List.mem_of_getLast? he)
    rw [hmem e (hin e he)] at hf
    refine hledger.earliest hsplit (fun e he f hf ↦ ?_) (fun e he ↦ ?_) e he f hf hkey
    · exact hnew e he f ((hmem e (hbefore e he) f).mpr hf)
    · obtain ⟨f, hf, hfkey⟩ := hchain e he
      exact ⟨f, (hmem e (hin e he) f).mp hf, hfkey⟩
  · intro e he f hf
    obtain ⟨last, hlink⟩ := hledger.link he
    exact hlink.ordered f ((hledger.mem_findings_iff he).mp hf)

theorem firstSeen_survives_steady :
    FirstSeenSurvives secondScan.after.db [firstScan, secondScan] ∧
      completed [firstScan, secondScan] = [firstScan, secondScan] := by
  refine ⟨firstSeen_survives rescans_steady, ?_⟩
  rw [completed, List.filter_eq_self]
  simp only [List.forall_mem_cons]
  decide +kernel

example : secondScan.findings.map (fun f ↦ (f.firstSeen, f.lastSeen)) = [(6, 18)] := by
  decide +kernel

end Vantage.Scan
