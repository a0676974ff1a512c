import Vantage.Adapters.External.Burp
import Vantage.Lib.Paths

/-!
# The conversation with Burp

What a scan says to the service of the customer and what it makes of the
answers, whatever the service and the connection do.
-/

namespace Vantage.Adapters.External

open Text Effect Engines Oss

/-- A call of the transport with its answer, or the waiting between two calls. -/
inductive Exchange where
  | post (path : String) (body : Json) (answer : Except PyError BurpResponse)
  | get (path : String) (answer : Except PyError BurpResponse)
  | sleep (seconds : ℚ) (ended : Except PyError Unit)

def Exchange.isGet : Exchange → Bool
  | .get _ _ => true
  | _ => false

theorem countP_post (path : String) (body : Json) (answer) (said : List Exchange) :
    (.post path body answer :: said).countP Exchange.isGet = said.countP Exchange.isGet := rfl

/-- A round of polling is one call. -/
theorem countP_round (path : String) (answer) (seconds : ℚ) (ended) (said : List Exchange) :
    (.get path answer :: .sleep seconds ended :: said).countP Exchange.isGet =
      said.countP Exchange.isGet + 1 := by
  simp [List.countP_cons, Exchange.isGet]

/-- What one call of the transport does to the world. -/
inductive BurpTransport.Step (t : BurpTransport) : History → Exchange → History → Prop
  | post (path : String) (body : Json) (h : History) :
      Step t h (.post path body (t.post path body h).1) (t.post path body h).2
  | get (path : String) (h : History) : Step t h (.get path (t.get path h).1) (t.get path h).2
  | sleep (seconds : ℚ) (h : History) :
      Step t h (.sleep seconds (t.sleep seconds h).1) (t.sleep seconds h).2

theorem BurpTransport.goes_post (t : BurpTransport) (path : String) (body : Json) :
    Goes t.Step (fun said answer ↦ said = [.post path body answer]) (t.post path body) :=
  .one fun h ↦ .post path body h

theorem BurpTransport.goes_get (t : BurpTransport) (path : String) :
    Goes t.Step (fun said answer ↦ said = [.get path answer]) (t.get path) :=
  .one fun h ↦ .get path h

theorem BurpTransport.goes_sleep (t : BurpTransport) (seconds : ℚ) :
    Goes t.Step (fun said ended ↦ said = [.sleep seconds ended]) (t.sleep seconds) :=
  .one fun h ↦ .sleep seconds h

/-! ## Answers -/

/-- `str(first or second or "")` of two fields. -/
def eitherOf (json : Record) (first second : String) : String :=
  ((Json.get json first).orElse ((Json.get json second).orElse (.str ""))).pyStr

namespace BurpResponse

/-- The service has taken the scan and said which one it is. -/
def Accepts (answer : BurpResponse) (scanId : String) : Prop :=
  BurpAdapter.failed answer = false ∧ (answer.status = 200 ∨ answer.status = 201) ∧
    eitherOf answer.json "scan_id" "id" = scanId ∧ scanId ≠ ""

/-- The scan is over. -/
def Final (answer : BurpResponse) : Prop :=
  BurpAdapter.failed answer = false ∧
    lower (eitherOf answer.json "scan_status" "status") ∈ BurpAdapter.finalStatuses

/-- The scan goes on. -/
def Pending (answer : BurpResponse) : Prop :=
  BurpAdapter.failed answer = false ∧
    lower (eitherOf answer.json "scan_status" "status") ∉ BurpAdapter.finalStatuses

end BurpResponse

/-! ## Polling -/

namespace BurpAdapter

variable (a : BurpAdapter) {scanId : String} {waited : ℚ} {said : List Exchange}
  {result : Except PyError (List Json)}

/-- The seconds between two polls. -/
def interval : ℚ := max a.config.pollIntervalSeconds 1

theorem one_le_interval : 1 ≤ a.interval := le_max_right _ 1

/-- `_poll` as a conversation, which needs no bound on its rounds. -/
inductive Polls (scanId : String) : ℚ → List Exchange → Except PyError (List Json) → Prop
  | timeUp {waited : ℚ} (htime : (a.maxPollSeconds : ℚ) ≤ waited) : Polls scanId waited [] (.ok [])
  | raised {waited : ℚ} (htime : waited < a.maxPollSeconds) (e : PyError) :
      Polls scanId waited [.get ("/scan/" ++ scanId) (.error e)] (.error e)
  | failed {waited : ℚ} (htime : waited < a.maxPollSeconds) {answer : BurpResponse}
      (hfailed : failed answer = true) :
      Polls scanId waited [.get ("/scan/" ++ scanId) (.ok answer)] (.ok [])
  | final {waited : ℚ} (htime : waited < a.maxPollSeconds) {answer : BurpResponse}
      (hfinal : answer.Final) :
      Polls scanId waited [.get ("/scan/" ++ scanId) (.ok answer)] (issuesOf answer.json)
  | cancelled {waited : ℚ} (htime : waited < a.maxPollSeconds) {answer : BurpResponse}
      (hpending : answer.Pending) (e : PyError) :
      Polls scanId waited
        [.get ("/scan/" ++ scanId) (.ok answer), .sleep a.interval (.error e)] (.error e)
  | again {waited : ℚ} (htime : waited < a.maxPollSeconds) {answer : BurpResponse}
      (hpending : answer.Pending) {said : List Exchange} {result : Except PyError (List Json)}
      (hrest : Polls scanId (waited + a.interval) said result) :
      Polls scanId waited
        (.get ("/scan/" ++ scanId) (.ok answer) :: .sleep a.interval (.ok ()) :: said) result

variable {a}

/-- The bound on the rounds is never what ends the loop. -/
theorem goes_poll {rounds : ℕ} (hrounds : a.maxPollSeconds < waited + rounds) :
    Goes a.transport.Step (a.Polls scanId waited) (a.poll scanId rounds waited) := by
  induction rounds generalizing waited with
  | zero => exact .pure (.timeUp (by simpa using hrounds.le))
  | succ rounds ih =>
      rw [poll]
      split
      · next htime => exact .pure (.timeUp htime)
      · next htime =>
          have htime := not_le.mp htime
          refine (a.transport.goes_get ("/scan/" ++ scanId)).bind ?_ ?_
          · rintro es e rfl
            exact .raised htime e
          rintro front answer rfl
          split
          · next hfailed => exact .pure (.failed htime hfailed)
          · next hfailed =>
              have hfailed := Bool.eq_false_of_not_eq_true hfailed
              dsimp only
              split
              · next hfinal => exact .ofExcept (.final htime ⟨hfailed, hfinal⟩)
              · next hpending =>
                  refine (a.transport.goes_sleep a.interval).bind ?_ ?_
                  · rintro es e rfl
                    exact .cancelled htime ⟨hfailed, hpending⟩ e
                  rintro front ⟨⟩ rfl
                  have hrest : (a.maxPollSeconds : ℚ) < waited + a.interval + rounds := by
                    have hone := a.one_le_interval
                    push_cast at hrounds
                    linarith
                  exact (ih hrest).mono fun es r h ↦ .again htime ⟨hfailed, hpending⟩ h

/-- The exchange is a poll of the scan, or the waiting before the next one. -/
def About (a : BurpAdapter) (scanId : String) (e : Exchange) : Prop :=
  (∃ answer, e = .get ("/scan/" ++ scanId) answer) ∨ ∃ ended, e = .sleep a.interval ended

theorem Polls.about (h : a.Polls scanId waited said result) : ∀ e ∈ said, a.About scanId e := by
  induction h with
  | timeUp => simp
  | raised => simp [About]
  | failed => simp [About]
  | final => simp [About]
  | cancelled => simp [About]
  | again _ _ _ ih =>
      refine List.forall_mem_cons.mpr ⟨.inl ⟨_, rfl⟩, ?_⟩
      exact List.forall_mem_cons.mpr ⟨.inr ⟨_, rfl⟩, ih⟩

/-- Before each poll there was time left. -/
theorem Polls.count (h : a.Polls scanId waited said result) :
    said.countP Exchange.isGet = 0 ∨ waited + said.countP Exchange.isGet < a.maxPollSeconds + 1 := by
  induction h with
  | timeUp => simp
  | raised htime => simpa [Exchange.isGet] using htime
  | failed htime => simpa [Exchange.isGet] using htime
  | final htime => simpa [Exchange.isGet] using htime
  | cancelled htime => simpa [countP_round] using htime
  | again htime _ _ ih =>
      right
      have hone := a.one_le_interval
      rcases ih with hnone | hsome
      · simpa [countP_round, hnone] using htime
      · rw [countP_round]
        push_cast
        linarith

/-- The next exchange after an exchange. -/
def Next : Exchange → Exchange → Prop
  | .post _ _ answer, .get _ _ => ∃ accepted scanId, answer = .ok accepted ∧ accepted.Accepts scanId
  | .get _ answer, .sleep _ _ => ∃ pending, answer = .ok pending ∧ pending.Pending
  | .sleep _ ended, .get _ _ => ended = .ok ()
  | _, _ => False

theorem Polls.isGet_head (h : a.Polls scanId waited said result) :
    ∀ e ∈ said.head?, ∃ path answer, e = .get path answer := by
  cases h <;> simp

theorem Polls.turns (h : a.Polls scanId waited said result) : said.IsChain Next := by
  induction h with
  | timeUp => exact .nil
  | raised => exact .singleton _
  | failed => exact .singleton _
  | final => exact .singleton _
  | cancelled _ hpending => exact .cons_cons ⟨_, rfl, hpending⟩ (.singleton _)
  | again _ hpending hrest ih =>
      refine .cons_cons ⟨_, rfl, hpending⟩ (List.isChain_cons.mpr ⟨fun e he ↦ ?_, ih⟩)
      obtain ⟨path, answer, rfl⟩ := hrest.isGet_head e he
      rfl

/-- A loop that returns has met its last answer, or has used its time. -/
theorem Polls.ends (h : a.Polls scanId waited said result) {issues : List Json}
    (hok : result = .ok issues) :
    (∃ front path answer, said = front ++ [.get path (.ok answer)] ∧
        (BurpAdapter.failed answer = true ∧ issues = [] ∨
          answer.Final ∧ issuesOf answer.json = .ok issues)) ∨
      issues = [] ∧ (a.maxPollSeconds : ℚ) ≤ waited + said.countP Exchange.isGet * a.interval := by
  induction h with
  | timeUp htime =>
      obtain rfl := Except.ok.inj hok
      exact .inr ⟨rfl, by simpa using htime⟩
  | raised => cases hok
  | failed _ hfailed =>
      obtain rfl := Except.ok.inj hok
      exact .inl ⟨[], _, _, rfl, .inl ⟨hfailed, rfl⟩⟩
  | final _ hfinal => exact .inl ⟨[], _, _, rfl, .inr ⟨hfinal, hok⟩⟩
  | cancelled => cases hok
  | again _ _ _ ih =>
      rcases ih hok with ⟨front, path, answer, rfl, hlast⟩ | ⟨hnone, htime⟩
      · exact .inl ⟨_ :: _ :: front, path, answer, rfl, hlast⟩
      · refine .inr ⟨hnone, htime.trans_eq ?_⟩
        rw [countP_round]
        push_cast
        ring

/-! ## A scan -/

/-- What a scan with the body says to the service, and what it returns then. -/
structure Conversation (a : BurpAdapter) (body : Json) (said : List Exchange)
    (result : Except PyError (List Json)) : Prop where
  /-- Nothing is said to a service that is not configured. -/
  configured : said ≠ [] → a.config.configured = true
  /-- First the scan is asked for, and then everything is about the scan that the service names. -/
  started : ∀ e later, said = e :: later → ∃ answer, e = .post "/scan" body answer ∧
    ∀ e' ∈ later, ∃ accepted scanId,
      answer = .ok accepted ∧ accepted.Accepts scanId ∧ a.About scanId e'
  turns : said.IsChain Next
  polls : said.countP Exchange.isGet ≤ a.maxPollSeconds
  /-- Issues are read from the last answer, which says that the scan is over. -/
  found : ∀ issues, result = .ok issues → issues ≠ [] → ∃ front path answer,
    said = front ++ [.get path (.ok answer)] ∧ answer.Final ∧ issuesOf answer.json = .ok issues
  /-- An accepted scan is not given up before its time. -/
  patient : ∀ answer scanId later, said = .post "/scan" body (.ok answer) :: later →
    answer.Accepts scanId → (∃ issues, result = .ok issues) →
      (∃ front path last, later = front ++ [.get path (.ok last)] ∧
        (failed last = true ∨ last.Final)) ∨
      (a.maxPollSeconds : ℚ) ≤ later.countP Exchange.isGet * a.interval

variable {body : Json}

/-- Nothing is said. -/
theorem conversation_nil : a.Conversation body [] (.ok []) where
  configured h := absurd rfl h
  started := by simp
  turns := .nil
  polls := Nat.zero_le _
  found issues hok hne := absurd (Except.ok.inj hok).symm hne
  patient := by simp

/-- The service has been asked for a scan and has not taken it. -/
theorem conversation_refused {answer : Except PyError BurpResponse}
    (hconfigured : a.config.configured = true)
    (hrefused : ∀ accepted scanId, answer = .ok accepted → ¬accepted.Accepts scanId)
    (hresult : ∀ issues, result = .ok issues → issues = []) :
    a.Conversation body [.post "/scan" body answer] result where
  configured _ := hconfigured
  started := by
    rintro e later ⟨⟩
    exact ⟨answer, rfl, List.forall_mem_nil _⟩
  turns := .singleton _
  polls := Nat.zero_le _
  found issues hok hne := absurd (hresult issues hok) hne
  patient := by
    rintro accepted scanId later ⟨⟩ haccepts -
    exact absurd haccepts (hrefused accepted scanId rfl)

/-- The service has taken the scan, and it is polled. -/
theorem conversation_polls {accepted : BurpResponse} (hconfigured : a.config.configured = true)
    (haccepts : accepted.Accepts scanId) (hpolls : a.Polls scanId 0 said result) :
    a.Conversation body (.post "/scan" body (.ok accepted) :: said) result where
  configured _ := hconfigured
  started := by
    rintro e later ⟨⟩
    exact ⟨.ok accepted, rfl, fun e' he' ↦ ⟨accepted, scanId, rfl, haccepts, hpolls.about e' he'⟩⟩
  turns := by
    refine List.isChain_cons.mpr ⟨fun e he ↦ ?_, hpolls.turns⟩
    obtain ⟨path, answer, rfl⟩ := hpolls.isGet_head e he
    exact ⟨accepted, scanId, rfl, haccepts⟩
  polls := by
    rw [countP_post]
    rcases hpolls.count with hnone | hsome
    · omega
    · rw [zero_add] at hsome
      exact Nat.le_of_lt_succ (by exact_mod_cast hsome)
  found issues hok hne := by
    rcases hpolls.ends hok with ⟨front, path, answer, rfl, hlast⟩ | ⟨hnone, -⟩
    · rcases hlast with ⟨-, hnone⟩ | ⟨hfinal, hissues⟩
      · exact absurd hnone hne
      · exact ⟨_ :: front, path, answer, rfl, hfinal, hissues⟩
    · exact absurd hnone hne
  patient := by
    rintro answer scanId' later ⟨⟩ - ⟨issues, hok⟩
    rcases hpolls.ends hok with ⟨front, path, answer, rfl, hlast⟩ | ⟨-, htime⟩
    · exact .inl ⟨front, path, answer, rfl, hlast.imp And.left And.left⟩
    · exact .inr (by simpa using htime)

theorem goes_executeScan (body : Json) :
    Goes a.transport.Step (a.Conversation body) (a.executeScan body) := by
  unfold executeScan
  split
  · exact .pure conversation_nil
  · next hconfigured =>
      have hconfigured : a.config.configured = true := by simpa using hconfigured
      refine (a.transport.goes_post "/scan" body).bind ?_ ?_
      · rintro es e rfl
        exact conversation_refused hconfigured (fun _ _ h ↦ by cases h) fun _ h ↦ by cases h
      rintro front accepted rfl
      have hnone : ∀ issues, (.ok [] : Except PyError (List Json)) = .ok issues → issues = [] :=
        fun _ h ↦ (Except.ok.inj h).symm
      split
      · next hrefused =>
          refine .pure (conversation_refused hconfigured ?_ hnone)
          rintro accepted scanId ⟨⟩ ⟨hfailed, hstatus, -⟩
          simp [hfailed] at hrefused
          omega
      · next htaken =>
          obtain ⟨hfailed, hstatus⟩ : failed accepted = false ∧
              (accepted.status = 200 ∨ accepted.status = 201) := by
            simpa [or_iff_not_imp_left] using htaken
          dsimp only
          split
          · next hid =>
              refine .pure (conversation_refused hconfigured ?_ hnone)
              rintro accepted scanId ⟨⟩ ⟨-, -, hscan, hne⟩
              exact hne (hscan.symm.trans hid)
          · next hid =>
              have haccepts : accepted.Accepts (eitherOf accepted.json "scan_id" "id") :=
                ⟨hfailed, hstatus, rfl, hid⟩
              refine (goes_poll ?_).mono fun es r h ↦ conversation_polls hconfigured haccepts h
              push_cast
              linarith

end BurpAdapter

end Vantage.Adapters.External
