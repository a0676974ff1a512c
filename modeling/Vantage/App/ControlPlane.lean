import Vantage.Findings.Formats
import Vantage.Scan.EngineLoop
import Vantage.Scan.Returned

/-!
# The control plane

Targets and reports are kept in two dictionaries. A scan is answered when its
run has ended; other requests are served while it runs.
-/

namespace Vantage.Api

open Findings Scan Text

structure TargetCreate where
  name : String
  baseUrls : List String
  kind : ApplicationKind := .unknown
  authorized : Bool := false
  scopeRules : List ScopeRule := []
  baseUrls_ne : baseUrls ≠ []

structure ScanCreate where
  targetId : String
  profile : ScanProfile := .standard

/-- What the handler of a request draws from outside. -/
structure Draw where
  newId : String
  now : Time

/-- `create_api`, and what it uses. -/
structure ControlPlane (σ : Type) where
  tenant : String
  orchestrator : Orchestrator σ
  /-- The text of a URL that the type `HttpUrl` accepts. -/
  httpUrl : String → Option String
  dumps : Dumps
  real : ℚ → PyFloat
  float : List Char → PyFloat

structure ApiState where
  targets : Dict String Target := .empty
  reports : Dict String ScanReport := .empty
  /-- The scans whose handlers wait for the orchestrator. -/
  running : List (Scan × Target) := []

inductive Response where
  | targetCreated (id : String) (authorized : Bool)
  | target (t : Target)
  | scanCreated (scanId state : String) (findings : ℕ) (bySeverity : List (String × ℕ))
  | report (payload : Json)
  | text (report : String)
  | failed (status : ℕ) (detail : String)

/-- An exception that no handler catches. -/
def internalError : Response := .failed 500 "Internal Server Error"

inductive Event where
  | createTarget (body : TargetCreate) (draw : Draw)
  | getTarget (targetId : String)
  | createScan (body : ScanCreate) (draw : Draw)
  /-- The orchestrator is done with a scan. -/
  | runEnds (scanId : String) (outcome : Except PyError ScanReport)
  | getReport (scanId fmt : String)

variable {σ : Type}

theorem apiVerifier_ne : "api" ≠ "" := by decide

def attestation (now : Time) : AuthorizationRecord where
  method := .signedAttestation
  verifiedAt := now
  verifiedBy := "api"
  verifiedBy_ne := apiVerifier_ne

theorem defaultRate_ok : (0 : ℚ) < 10 ∧ (10 : ℚ) ≤ 1000 := by norm_num

theorem defaultConcurrency_ok : 1 ≤ 4 ∧ 4 ≤ 256 := by decide

def defaultRateLimits : RateLimits := ⟨10, 4, defaultRate_ok, defaultConcurrency_ok⟩

/-- The constructor of the model, which validates. -/
def newTarget (c : ControlPlane σ) (body : TargetCreate) (draw : Draw) : Except PyError Target :=
  match body.baseUrls.mapM c.httpUrl with
  | none => .error .validationError
  | some baseUrls =>
      if h : (1 ≤ body.name.length ∧ body.name.length ≤ 200) ∧ baseUrls ≠ [] then
        .ok { id := draw.newId
              tenantId := c.tenant
              name := body.name
              baseUrls := baseUrls
              kind := body.kind
              scopeRules := body.scopeRules
              rateLimits := defaultRateLimits
              authorization := if body.authorized then some (attestation draw.now) else none
              createdAt := draw.now
              name_ok := h.1
              baseUrls_ne := h.2 }
      else .error .validationError

/-- The target that is registered; without rules it gets those of its URLs. -/
def registered (c : ControlPlane σ) (body : TargetCreate) (draw : Draw) : Except PyError Target := do
  let target ← newTarget c body draw
  if target.scopeRules = [] then do
    let rules ← Scope.defaultScopeRulesFor target.baseUrls
    pure { target with scopeRules := rules }
  else pure target

def createTarget (c : ControlPlane σ) (body : TargetCreate) (draw : Draw) (s : ApiState) :
    ApiState × Response :=
  match registered c body draw with
  | .error _ => (s, internalError)
  | .ok target =>
      ({ s with targets := s.targets.set target.id target },
        .targetCreated target.id (target.isAuthorized draw.now))

def getTarget (targetId : String) (s : ApiState) : Response :=
  match s.targets.get? targetId with
  | none => .failed 404 "target not found"
  | some target => .target target

def newScan (c : ControlPlane σ) (body : ScanCreate) (target : Target) (draw : Draw) : Scan where
  id := draw.newId
  tenantId := c.tenant
  targetId := target.id
  policy := { profile := body.profile }
  createdBy := "api"
  createdAt := draw.now

/-- `create_scan` up to the call of the orchestrator; there is an answer only if it is not made. -/
def createScan (c : ControlPlane σ) (body : ScanCreate) (draw : Draw) (s : ApiState) :
    ApiState × Option Response :=
  match s.targets.get? body.targetId with
  | none => (s, some (.failed 404 "target not found"))
  | some target =>
      if target.isAuthorized draw.now = false then
        (s, some (.failed 403 "target has no valid authorization record; cannot scan"))
      else ({ s with running := s.running ++ [(newScan c body target draw, target)] }, none)

def summaryResponse (report : ScanReport) : Response :=
  .scanCreated report.scan.id report.scan.state.value report.findings.length
    (summarize report.findings)

/-- `create_scan` from the end of the run on. -/
def runEnds (scanId : String) (outcome : Except PyError ScanReport) (s : ApiState) :
    ApiState × Option Response :=
  match s.running.find? (·.1.id = scanId) with
  | none => (s, none)
  | some _ =>
      let s := { s with running := s.running.filter (·.1.id ≠ scanId) }
      match outcome with
      | .error _ => (s, some internalError)
      | .ok report =>
          ({ s with reports := s.reports.set report.scan.id report }, some (summaryResponse report))

def getReport (c : ControlPlane σ) (scanId fmt : String) (s : ApiState) : Response :=
  match s.reports.get? scanId with
  | none => .failed 404 "report not found"
  | some report =>
      if fmt = "json" then
        match JsonReader.loads c.float (toJson c.dumps report).toList with
        | .error _ => internalError
        | .ok payload => .report payload
      else
        match render c.real c.dumps report fmt with
        | .error _ => internalError
        | .ok text => .text text

def step (c : ControlPlane σ) (s : ApiState) : Event → ApiState × Option Response
  | .createTarget body draw => (createTarget c body draw s).map id some
  | .getTarget targetId => (s, some (getTarget targetId s))
  | .createScan body draw => createScan c body draw s
  | .runEnds scanId outcome => runEnds scanId outcome s
  | .getReport scanId fmt => (s, some (getReport c scanId fmt s))

/-- The state after some events. -/
def serve (c : ControlPlane σ) (s : ApiState) (events : List Event) : ApiState :=
  events.foldl (fun s event ↦ (step c s event).1) s

/-! ## What can happen -/

/-- Identifiers are fresh, and a run ends as the orchestrator makes it end, whatever the tables
and the rest of the world were like when it began. -/
def Admissible (c : ControlPlane σ) (s : ApiState) : Event → Prop
  | .createTarget _ draw => s.targets.get? draw.newId = none
  | .createScan _ draw =>
      s.reports.get? draw.newId = none ∧ ∀ e ∈ s.running, e.1.id ≠ draw.newId
  | .runEnds scanId outcome => ∀ e ∈ s.running, e.1.id = scanId →
      ∃ p p', c.orchestrator.run e.1 e.2 p = (outcome, p')
  | _ => True

def Possible (c : ControlPlane σ) : ApiState → List Event → Prop
  | _, [] => True
  | s, event :: events => Admissible c s event ∧ Possible c (step c s event).1 events

variable {c : ControlPlane σ} {s : ApiState} {past events : List Event}

theorem possible_append {more : List Event} (h : Possible c s (events ++ more)) :
    Possible c s events ∧ Possible c (serve c s events) more := by
  induction events generalizing s with
  | nil => exact ⟨trivial, h⟩
  | cons event events ih =>
      obtain ⟨hfirst, hrest⟩ := h
      exact ⟨⟨hfirst, (ih hrest).1⟩, (ih hrest).2⟩

/-- The target was registered by a request. -/
def Registered (c : ControlPlane σ) (past : List Event) (targetId : String) (target : Target) :
    Prop :=
  ∃ body draw, Event.createTarget body draw ∈ past ∧ draw.newId = targetId ∧
    registered c body draw = .ok target

/-- The scan was made for a request. -/
def Requested (c : ControlPlane σ) (past : List Event) (scan : Scan) (target : Target) : Prop :=
  ∃ body draw, Event.createScan body draw ∈ past ∧ target.id = body.targetId ∧
    scan = newScan c body target draw

/-- The authorization that a target is registered with never expires. -/
theorem registered_ok {body : TargetCreate} {draw : Draw} {target : Target}
    (h : registered c body draw = .ok target) : target.id = draw.newId ∧
      target.authorization = if body.authorized then some (attestation draw.now) else none := by
  have hnew : ∀ t, newTarget c body draw = .ok t → t.id = draw.newId ∧
      t.authorization = if body.authorized then some (attestation draw.now) else none := by
    intro t ht
    unfold newTarget at ht
    split at ht
    · exact absurd ht (by simp)
    · split at ht
      · obtain rfl := Except.ok.inj ht
        exact ⟨rfl, rfl⟩
      · exact absurd ht (by simp)
  obtain ⟨t, ht, hrest⟩ := ExceptList.exists_of_bind_ok h
  by_cases hrules : t.scopeRules = []
  · rw [if_pos hrules] at hrest
    obtain ⟨rules, -, hlast⟩ := ExceptList.exists_of_bind_ok hrest
    obtain rfl := Except.ok.inj hlast
    exact hnew t ht
  · rw [if_neg hrules] at hrest
    obtain rfl := Except.ok.inj hrest
    exact hnew t ht

theorem Registered.isAuthorized {targetId : String} {target : Target}
    (h : Registered c past targetId target) (now : Time) :
    target.isAuthorized now = target.authorization.isSome := by
  obtain ⟨body, draw, -, -, hregistered⟩ := h
  obtain ⟨-, hauthorization⟩ := registered_ok hregistered
  rw [Target.isAuthorized, hauthorization]
  cases body.authorized <;> rfl

/-- The invariant of the control plane. -/
structure Sound (c : ControlPlane σ) (past : List Event) (s : ApiState) : Prop where
  targets : ∀ i target, s.targets.get? i = some target → Registered c past i target
  running : ∀ e ∈ s.running, Requested c past e.1 e.2 ∧
    s.targets.get? e.1.targetId = some e.2 ∧ e.2.authorization.isSome = true
  nodup : (s.running.map fun e ↦ e.1.id).Nodup
  apart : ∀ e ∈ s.running, s.reports.get? e.1.id = none
  reports : ∀ i report, s.reports.get? i = some report → report.scan.id = i ∧
    report.scan.state = .completed ∧ ∃ scan target, Requested c past scan target ∧
      Continues scan report.scan ∧ s.targets.get? scan.targetId = some target ∧
        target.authorization.isSome = true

theorem Registered.mono {more : List Event} {targetId : String} {target : Target}
    (h : Registered c past targetId target) : Registered c (past ++ more) targetId target := by
  obtain ⟨body, draw, hmem, hrest⟩ := h
  exact ⟨body, draw, List.mem_append_left more hmem, hrest⟩

theorem Requested.mono {more : List Event} {scan : Scan} {target : Target}
    (h : Requested c past scan target) : Requested c (past ++ more) scan target := by
  obtain ⟨body, draw, hmem, hrest⟩ := h
  exact ⟨body, draw, List.mem_append_left more hmem, hrest⟩

/-- What has happened since does not matter to a state that has not changed. -/
theorem Sound.mono (h : Sound c past s) (more : List Event) : Sound c (past ++ more) s where
  targets i target hget := (h.targets i target hget).mono
  running e he := ⟨(h.running e he).1.mono, (h.running e he).2⟩
  nodup := h.nodup
  apart := h.apart
  reports i report hget := by
    obtain ⟨hid, hstate, scan, target, hrequested, hrest⟩ := h.reports i report hget
    exact ⟨hid, hstate, scan, target, hrequested.mono, hrest⟩

theorem sound_empty (c : ControlPlane σ) : Sound c [] {} where
  targets i target h := absurd (h.symm.trans (Dict.get?_empty i)) (Option.some_ne_none target)
  running _ he := absurd he List.not_mem_nil
  nodup := List.nodup_nil
  apart _ he := absurd he List.not_mem_nil
  reports i report h := absurd (h.symm.trans (Dict.get?_empty i)) (Option.some_ne_none report)

theorem Sound.createTarget (h : Sound c past s) {body : TargetCreate} {draw : Draw}
    (hfresh : s.targets.get? draw.newId = none) :
    Sound c (past ++ [.createTarget body draw]) (Api.createTarget c body draw s).1 := by
  unfold Api.createTarget
  cases hregistered : registered c body draw with
  | error e => exact h.mono _
  | ok target =>
      have hid := (registered_ok hregistered).1
      -- the other targets are still where they were
      have hkeep : ∀ i t, s.targets.get? i = some t →
          (s.targets.set target.id target).get? i = some t := by
        intro i t hget
        have hne : i ≠ target.id := by
          rintro rfl
          rw [hid, hfresh] at hget
          exact absurd hget (by simp)
        rw [Dict.get?_set_of_ne _ hne, hget]
      refine ⟨fun i t hget ↦ ?_, fun e he ↦ ?_, h.nodup, h.apart, fun i report hget ↦ ?_⟩
      · by_cases hi : i = target.id
        · rw [hi, Dict.get?_set_self] at hget
          obtain rfl := Option.some.inj hget
          exact ⟨body, draw, by simp, hid.symm.trans hi.symm, hregistered⟩
        · rw [Dict.get?_set_of_ne _ hi] at hget
          exact (h.targets i t hget).mono
      · obtain ⟨hrequested, hget, hsome⟩ := h.running e he
        exact ⟨hrequested.mono, hkeep _ _ hget, hsome⟩
      · obtain ⟨hrid, hstate, scan, t, hrequested, hcontinues, ht, hsome⟩ := h.reports i report hget
        exact ⟨hrid, hstate, scan, t, hrequested.mono, hcontinues, hkeep _ _ ht, hsome⟩

theorem Sound.createScan (h : Sound c past s) {body : ScanCreate} {draw : Draw}
    (hfresh : s.reports.get? draw.newId = none ∧ ∀ e ∈ s.running, e.1.id ≠ draw.newId) :
    Sound c (past ++ [.createScan body draw]) (Api.createScan c body draw s).1 := by
  unfold Api.createScan
  cases hget : s.targets.get? body.targetId with
  | none => exact h.mono _
  | some target =>
      have htarget := h.targets _ _ hget
      have hid : target.id = body.targetId := by
        obtain ⟨tbody, tdraw, -, hdraw, hregistered⟩ := htarget
        exact (registered_ok hregistered).1.trans hdraw
      simp only
      split_ifs with hauthorized
      · exact h.mono _
      · rw [htarget.isAuthorized, Bool.not_eq_false] at hauthorized
        have hbefore := h.mono [.createScan body draw]
        have hmem : ∀ e ∈ s.running ++ [(newScan c body target draw, target)],
            e ∈ s.running ∨ e = (newScan c body target draw, target) := by simp
        refine ⟨hbefore.targets, fun e he ↦ ?_, ?_, fun e he ↦ ?_, hbefore.reports⟩
        · rcases hmem e he with he | rfl
          · exact hbefore.running e he
          · refine ⟨⟨body, draw, by simp, hid, rfl⟩, ?_, hauthorized⟩
            change s.targets.get? target.id = some target
            rw [hid, hget]
        · rw [List.map_append, List.map_singleton, List.nodup_append]
          refine ⟨h.nodup, List.nodup_singleton _, fun a ha b hb ↦ ?_⟩
          obtain ⟨e, he, rfl⟩ := List.mem_map.mp ha
          rw [List.mem_singleton] at hb
          rw [hb]
          exact hfresh.2 e he
        · rcases hmem e he with he | rfl
          · exact h.apart e he
          · exact hfresh.1

theorem Sound.runEnds (h : Sound c past s) {scanId : String} {outcome : Except PyError ScanReport}
    (houtcome : ∀ e ∈ s.running, e.1.id = scanId →
      ∃ p p', c.orchestrator.run e.1 e.2 p = (outcome, p')) :
    Sound c (past ++ [.runEnds scanId outcome]) (Api.runEnds scanId outcome s).1 := by
  have hbefore := h.mono [.runEnds scanId outcome]
  unfold Api.runEnds
  cases hfind : s.running.find? (·.1.id = scanId) with
  | none => exact hbefore
  | some e =>
      have he := List.mem_of_find?_eq_some hfind
      have hid : e.1.id = scanId := by simpa using List.find?_some hfind
      have hmem : ∀ e' ∈ s.running.filter (·.1.id ≠ scanId), e' ∈ s.running ∧ e'.1.id ≠ scanId := by
        simp
      have hnodup : ((s.running.filter (·.1.id ≠ scanId)).map fun e ↦ e.1.id).Nodup :=
        h.nodup.sublist (List.filter_sublist.map _)
      cases outcome with
      | error err =>
          exact ⟨hbefore.targets, fun e' he' ↦ hbefore.running e' (hmem e' he').1, hnodup,
            fun e' he' ↦ h.apart e' (hmem e' he').1, hbefore.reports⟩
      | ok report =>
          obtain ⟨hrequested, htarget, hsome⟩ := hbefore.running e he
          obtain ⟨p, p', hrun⟩ := houtcome e he hid
          have hanswers := answers_run c.orchestrator e.1 e.2 p report p' hrun
          have hreport : report.scan.id = scanId := hanswers.scan.id.trans hid
          -- the target was authorized for good, so the run was not refused
          have hcompleted : report.scan.state = .completed := by
            refine hanswers.ended.resolve_right ?_
            rintro ⟨-, -, now, hrefused⟩
            rw [(hbefore.targets _ _ htarget).isAuthorized, hsome] at hrefused
            exact absurd hrefused (by simp)
          refine ⟨hbefore.targets, fun e' he' ↦ hbefore.running e' (hmem e' he').1, hnodup,
            fun e' he' ↦ ?_, fun i r hget ↦ ?_⟩
          · rw [Dict.get?_set_of_ne _ (by rw [hreport]; exact (hmem e' he').2)]
            exact h.apart e' (hmem e' he').1
          · by_cases hi : i = report.scan.id
            · rw [hi, Dict.get?_set_self] at hget
              obtain rfl := Option.some.inj hget
              exact ⟨hi.symm, hcompleted, e.1, e.2, hrequested, hanswers.scan, htarget, hsome⟩
            · rw [Dict.get?_set_of_ne _ hi] at hget
              exact hbefore.reports i r hget

theorem Sound.step (h : Sound c past s) {event : Event} (hevent : Admissible c s event) :
    Sound c (past ++ [event]) (Api.step c s event).1 := by
  cases event with
  | createTarget body draw => exact h.createTarget hevent
  | getTarget targetId => exact h.mono _
  | createScan body draw => exact h.createScan hevent
  | runEnds scanId outcome => exact h.runEnds hevent
  | getReport scanId fmt => exact h.mono _

theorem Sound.serve (h : Sound c past s) (hevents : Possible c s events) :
    Sound c (past ++ events) (Api.serve c s events) := by
  induction events generalizing past s with
  | nil => rwa [List.append_nil]
  | cons event events ih =>
      obtain ⟨hfirst, hrest⟩ := hevents
      have hlast := ih (h.step hfirst) hrest
      rwa [List.append_assoc] at hlast

/-- Whatever requests are served while scans run: a report is only given out for a scan that was
asked for and has been completed, of a target that was registered with authorization. -/
theorem report_accounted (hevents : Possible c {} events) {scanId fmt : String}
    (hserved : ∀ detail, getReport c scanId fmt (serve c {} events) ≠ .failed 404 detail) :
    ∃ report body draw target targetBody targetDraw,
      (serve c {} events).reports.get? scanId = some report ∧
      report.scan.state = .completed ∧
      Event.createScan body draw ∈ events ∧ draw.newId = scanId ∧
      Continues (newScan c body target draw) report.scan ∧
      Event.createTarget targetBody targetDraw ∈ events ∧ targetDraw.newId = body.targetId ∧
      registered c targetBody targetDraw = .ok target ∧ targetBody.authorized = true := by
  have hsound := (sound_empty c).serve hevents
  rw [List.nil_append] at hsound
  cases hget : (serve c {} events).reports.get? scanId with
  | none =>
      refine absurd ?_ (hserved "report not found")
      rw [getReport, hget]
  | some report =>
      obtain ⟨hid, hstate, scan, target, ⟨body, draw, hmem, htarget, rfl⟩, hcontinues, hstored,
        hsome⟩ := hsound.reports scanId report hget
      obtain ⟨targetBody, targetDraw, hregister, hdraw, hregistered⟩ := hsound.targets _ _ hstored
      have hbody : targetBody.authorized = true := by
        rw [(registered_ok hregistered).2] at hsome
        by_contra hno
        rw [if_neg hno] at hsome
        exact absurd hsome (by simp)
      refine ⟨report, body, draw, target, targetBody, targetDraw, rfl, hstate, hmem, ?_, hcontinues,
        hregister, hdraw.trans htarget, hregistered, hbody⟩
      exact hcontinues.id.symm.trans hid

/-! ## Reports stay -/

theorem kept_step (h : Sound c past s) {event : Event} (hevent : Admissible c s event)
    {i : String} {report : ScanReport} (hget : s.reports.get? i = some report) :
    (step c s event).1.reports.get? i = some report := by
  cases event with
  | createTarget body draw =>
      simp only [step, Prod.map_fst, id_eq, Api.createTarget]
      split <;> exact hget
  | getTarget targetId => exact hget
  | createScan body draw =>
      simp only [step, Api.createScan]
      split
      · exact hget
      · split_ifs <;> exact hget
  | runEnds scanId outcome =>
      simp only [step, Api.runEnds]
      cases hfind : s.running.find? (·.1.id = scanId) with
      | none => exact hget
      | some e =>
          have he := List.mem_of_find?_eq_some hfind
          have hid : e.1.id = scanId := by simpa using List.find?_some hfind
          cases outcome with
          | error err => exact hget
          | ok report' =>
              obtain ⟨p, p', hrun⟩ := hevent e he hid
              have hreport := (answers_run c.orchestrator e.1 e.2 p report' p' hrun).scan.id
              have hne : i ≠ report'.scan.id := by
                rintro rfl
                rw [hreport, h.apart e he] at hget
                exact absurd hget (by simp)
              exact (Dict.get?_set_of_ne _ hne _).trans hget
  | getReport scanId fmt => exact hget

theorem kept_serve (h : Sound c past s) (hevents : Possible c s events) {i : String}
    {report : ScanReport} (hget : s.reports.get? i = some report) :
    (serve c s events).reports.get? i = some report := by
  induction events generalizing past s with
  | nil => exact hget
  | cons event events ih =>
      obtain ⟨hfirst, hrest⟩ := hevents
      exact ih (h.step hfirst) hrest (kept_step h hfirst hget)

theorem serve_nil : serve c s [] = s := rfl

theorem serve_cons (event : Event) (events : List Event) :
    serve c s (event :: events) = serve c (step c s event).1 events := rfl

theorem serve_append (events more : List Event) :
    serve c s (events ++ more) = serve c (serve c s events) more := List.foldl_append

theorem reports_runEnds {e : Scan × Target} {i : String}
    (h : s.running.find? (·.1.id = i) = some e) (report : ScanReport) :
    (step c s (.runEnds i (.ok report))).1.reports.get? report.scan.id = some report := by
  simp only [step, Api.runEnds, h]
  exact Dict.get?_set_self _ _ _

/-- What the client was told when the scan was done is what any later request for the report
reads, whatever was asked for in between. -/
theorem report_kept {before after : List Event} {i : String} {outcome : Except PyError ScanReport}
    (hevents : Possible c {} (before ++ .runEnds i outcome :: after))
    {scanId state : String} {n : ℕ} {counts : List (String × ℕ)}
    (hanswer : (step c (serve c {} before) (.runEnds i outcome)).2 =
      some (.scanCreated scanId state n counts))
    (hprintable : ∀ report, outcome = .ok report → Printable c.float c.dumps report) :
    ∃ report, outcome = .ok report ∧ scanId = i ∧ state = "completed" ∧
      n = report.findings.length ∧ counts = summarize report.findings ∧
      getReport c i "json" (serve c {} (before ++ .runEnds i outcome :: after)) =
        .report (.obj (payload c.dumps report)) := by
  obtain ⟨hbefore, hend, hafter⟩ := possible_append hevents
  have hsound := (sound_empty c).serve hbefore
  have hlast : serve c {} (before ++ .runEnds i outcome :: after) =
      serve c (step c (serve c {} before) (.runEnds i outcome)).1 after := by
    rw [serve_append, serve_cons]
  have hdone := hsound.step hend
  cases hfind : (serve c {} before).running.find? (·.1.id = i) with
  | none => simp [step, Api.runEnds, hfind] at hanswer
  | some e =>
      cases outcome with
      | error err => simp [step, Api.runEnds, hfind, internalError] at hanswer
      | ok report =>
          simp only [step, Api.runEnds, hfind, summaryResponse, Option.some.injEq,
            Response.scanCreated.injEq] at hanswer
          obtain ⟨rfl, rfl, rfl, rfl⟩ := hanswer
          have hget := reports_runEnds (c := c) hfind report
          have hcompleted := (hdone.reports _ _ hget).2.1
          have hid : report.scan.id = i := by
            have he := List.mem_of_find?_eq_some hfind
            have hei : e.1.id = i := by simpa using List.find?_some hfind
            obtain ⟨p, p', hrun⟩ := hend e he hei
            exact (answers_run c.orchestrator e.1 e.2 p report p' hrun).scan.id.trans hei
          refine ⟨report, rfl, hid, by rw [hcompleted]; rfl, rfl, rfl, ?_⟩
          have hserved := kept_serve hdone hafter hget
          rw [hid] at hserved
          rw [hlast, getReport, hserved]
          simp only [if_true, toJson, loads_ofPretty (loadable_payload (hprintable report rfl))]

/-! ## One scan of one target -/

def demoPlane : ControlPlane Unit where
  tenant := "t"
  orchestrator := demoOrchestrator .null (reporting .healthy [])
  httpUrl := some
  dumps := plainDumps
  real _ := zeroFloat
  float _ := zeroFloat

def demoBody : TargetCreate where
  name := "app"
  baseUrls := ["https://app.example/"]
  authorized := true
  scopeRules := [demoHost]
  baseUrls_ne := demoBaseUrls_ne

/-- The target is registered and a scan of it is asked for. -/
def asked : List Event := [.createTarget demoBody ⟨"g", 0⟩, .createScan ⟨"g", .standard⟩ ⟨"s", 0⟩]

/-- How the run of the scan that waits ends. -/
def demoOutcome : Except PyError ScanReport :=
  match (serve demoPlane {} asked).running with
  | e :: _ => (demoPlane.orchestrator.run e.1 e.2 demoPlatform).1
  | [] => .error .keyError

theorem demoOutcome_ok : ∃ report, demoOutcome = .ok report ∧ report.scan.id = "s" ∧
    report.scan.state = .completed ∧ report.findings.length = 0 ∧ report.observations = 0 ∧
      report.proofs.map (fun proofs ↦ proofs.proofs.length) = some 0 ∧
        report.advice.isNone = true := by
  have hparts : demoOutcome.toOption.any (fun report ↦ report.scan.id = "s" ∧
      report.scan.state = .completed ∧ report.findings.length = 0 ∧ report.observations = 0 ∧
        report.proofs.map (fun proofs ↦ proofs.proofs.length) = some 0 ∧
          report.advice.isNone = true) = true := by decide +kernel
  cases houtcome : demoOutcome with
  | error e =>
      rw [houtcome] at hparts
      exact absurd hparts Bool.false_ne_true
  | ok report =>
      rw [houtcome] at hparts
      exact ⟨report, rfl, of_decide_eq_true hparts⟩

theorem printable_demoOutcome (report : ScanReport) (h : demoOutcome = .ok report) :
    Printable demoPlane.float demoPlane.dumps report := by
  obtain ⟨report', hreport, -, -, hfindings, hobservations, hproofs, hadvice⟩ := demoOutcome_ok
  obtain rfl := Except.ok.inj (h.symm.trans hreport)
  have hno : ∀ ai, ai ∉ report.advice := by
    intro ai hai
    rw [Option.isNone_iff_eq_none.mp hadvice] at hai
    exact absurd hai (by simp)
  refine ⟨loadable_plainScan _, fun f hf ↦ ?_, ?_, ?_, fun proofs hp ↦ ?_,
    fun ai hai ↦ absurd hai (hno ai), fun ai hai ↦ absurd hai (hno ai),
    fun ai hai ↦ absurd hai (hno ai)⟩
  · rw [List.eq_nil_of_length_eq_zero hfindings] at hf
    exact absurd hf List.not_mem_nil
  · rw [hfindings]
    exact lt_pow_of_small (by decide)
  · rw [hobservations]
    exact lt_pow_of_small (by decide)
  · rw [Option.mem_def.mp hp, Option.map_some, Option.some_inj] at hproofs
    rw [hproofs, List.eq_nil_of_length_eq_zero hproofs]
    exact ⟨lt_pow_of_small (by decide), fun p h ↦ absurd h List.not_mem_nil⟩

/-- The events of one scan, up to its report. -/
theorem possible_demo : Possible demoPlane {} (asked ++ [.runEnds "s" demoOutcome]) := by
  refine ⟨rfl, ⟨rfl, fun e he ↦ absurd he List.not_mem_nil⟩, fun e he _ ↦ ?_, trivial⟩
  obtain ⟨e', hrunning⟩ : ∃ e', (serve demoPlane {} asked).running = [e'] := ⟨_, rfl⟩
  have he' : e ∈ (serve demoPlane {} asked).running := he
  rw [hrunning, List.mem_singleton] at he'
  subst he'
  refine ⟨demoPlatform, (demoPlane.orchestrator.run e.1 e.2 demoPlatform).2, ?_⟩
  rw [demoOutcome, hrunning]

/-- What is answered when the run has ended. -/
theorem answer_demo :
    (step demoPlane (serve demoPlane {} asked) (.runEnds "s" demoOutcome)).2 =
      some (.scanCreated "s" "completed" 0 (summarize [])) := by
  obtain ⟨report, hreport, hid, hstate, hfindings, -⟩ := demoOutcome_ok
  have hempty := List.eq_nil_of_length_eq_zero hfindings
  obtain ⟨e, hfind⟩ : ∃ e, (serve demoPlane {} asked).running.find? (·.1.id = "s") = some e :=
    ⟨_, rfl⟩
  simp only [step, runEnds, hfind, hreport, summaryResponse, hid, hstate, hempty, List.length_nil]
  rfl

theorem report_kept_demo : ∃ report, demoOutcome = .ok report ∧ "s" = "s" ∧
    "completed" = "completed" ∧ 0 = report.findings.length ∧
      summarize [] = summarize report.findings ∧
      getReport demoPlane "s" "json" (serve demoPlane {}
        (asked ++ .runEnds "s" demoOutcome :: [])) =
          .report (.obj (payload demoPlane.dumps report)) :=
  report_kept possible_demo answer_demo printable_demoOutcome

theorem served_demo (detail : String) :
    getReport demoPlane "s" "sarif" (serve demoPlane {} (asked ++ [.runEnds "s" demoOutcome])) ≠
      .failed 404 detail := by
  obtain ⟨report, hreport, hid, -⟩ := demoOutcome_ok
  obtain ⟨e, hfind⟩ : ∃ e, (serve demoPlane {} asked).running.find? (·.1.id = "s") = some e :=
    ⟨_, rfl⟩
  have hget := reports_runEnds (c := demoPlane) hfind report
  rw [hid, ← hreport] at hget
  rw [serve_append, serve_cons, serve_nil, getReport, hget]
  have hformat : ¬ ("sarif" = "json") := by decide
  simp only [if_neg hformat]
  split <;> simp [internalError]

theorem report_accounted_demo :
    ∃ report body draw target targetBody targetDraw,
      (serve demoPlane {} (asked ++ [.runEnds "s" demoOutcome])).reports.get? "s" = some report ∧
      report.scan.state = .completed ∧
      Event.createScan body draw ∈ asked ++ [.runEnds "s" demoOutcome] ∧ draw.newId = "s" ∧
      Continues (newScan demoPlane body target draw) report.scan ∧
      Event.createTarget targetBody targetDraw ∈ asked ++ [.runEnds "s" demoOutcome] ∧
      targetDraw.newId = body.targetId ∧
      registered demoPlane targetBody targetDraw = .ok target ∧ targetBody.authorized = true :=
  report_accounted possible_demo served_demo

end Vantage.Api
