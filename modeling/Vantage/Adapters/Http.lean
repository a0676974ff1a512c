import Vantage.Adapters.World

/-!
# The scope-enforcing HTTP client

Waiting for the rate limiter and measuring the elapsed time are left out.
-/

namespace Vantage.Adapters

open Text Scope

structure FetchResult where
  url : String
  status : ℤ
  headers : List (String × String)
  body : String
  error : Option String := none
  outOfScope : Bool := false

def FetchResult.ok (r : FetchResult) : Bool := r.error.isNone && !r.outOfScope

def defaultMaxBody : ℕ := 4 * 1024 * 1024

structure ScopedHttpClient where
  scope : ScopeEngine
  maxBody : ℕ := defaultMaxBody

/-- Read the body of a response; decoding may raise as well. -/
def ScopedHttpClient.read (w : World) (c : ScopedHttpClient) (url : String) :
    HttpOutcome → FetchResult
  | .failure message => { url := url, status := 0, headers := [], body := "", error := some message }
  | .response r =>
      match w.decode (orElse r.encoding "utf-8") (r.content.take c.maxBody) with
      | .error message =>
          { url := url, status := 0, headers := [], body := "", error := some message }
      | .ok text => { url := r.url, status := r.statusCode, headers := r.headers, body := text }

def ScopedHttpClient.fetch (w : World) (c : ScopedHttpClient) (method url : String) :
    Action FetchResult := do
  let decision ← Effect.ofExcept (c.scope.check w.regex url (some method))
  if decision.allowed then
    let outcome ← w.send method url
    pure (c.read w url outcome)
  else
    pure { url := url, status := 0, headers := [], body := ""
           error := some decision.reason, outOfScope := true }

def ScopedHttpClient.get (w : World) (c : ScopedHttpClient) (url : String) : Action FetchResult :=
  c.fetch w "GET" url

/-! ## What a fetch returns -/

/-- A failed fetch has nothing but its URL and the reason. -/
structure FetchResult.Blank (r : FetchResult) : Prop where
  status : r.status = 0
  headers : r.headers = []
  body : r.body = ""

theorem read_blank {w : World} {c : ScopedHttpClient} {url : String} {outcome : HttpOutcome}
    (h : (c.read w url outcome).ok = false) : (c.read w url outcome).Blank := by
  unfold ScopedHttpClient.read at h ⊢
  cases outcome with
  | failure message => exact ⟨rfl, rfl, rfl⟩
  | response r =>
      cases hdecode : w.decode (orElse r.encoding "utf-8") (r.content.take c.maxBody) with
      | error message => simp only [hdecode]; exact ⟨rfl, rfl, rfl⟩
      | ok text => simp [hdecode, FetchResult.ok] at h

/-- A fetch either raises where the scope check raises, or is refused by it, or
sends the request and reads the answer. -/
theorem fetch_cases (w : World) (c : ScopedHttpClient) (method url : String) (s : History) :
    (∃ e, c.scope.check w.regex url (some method) = .error e ∧
      c.fetch w method url s = (.error e, s)) ∨
    (∃ decision, c.scope.check w.regex url (some method) = .ok decision ∧
      decision.allowed = false ∧ c.fetch w method url s =
        (.ok { url := url, status := 0, headers := [], body := ""
               error := some decision.reason, outOfScope := true }, s)) ∨
    (c.scope.Allows w.regex url (some method) ∧ c.fetch w method url s =
      (.ok (c.read w url (w.respond s method url)),
        .request method url (w.respond s method url) :: s)) := by
  unfold ScopedHttpClient.fetch
  cases hcheck : c.scope.check w.regex url (some method) with
  | error e => exact Or.inl ⟨e, rfl, rfl⟩
  | ok decision =>
      cases hallowed : decision.allowed with
      | false =>
          refine Or.inr (Or.inl ⟨decision, rfl, hallowed, ?_⟩)
          simp [Effect.bind_apply, hallowed]
      | true =>
          refine Or.inr (Or.inr ⟨?_, ?_⟩)
          · simp [ScopeEngine.Allows, ScopeEngine.verdict, hcheck, Except.map, hallowed]
          · simp [Effect.bind_apply, hallowed, World.send]

theorem blank_of_fetch {w : World} {c : ScopedHttpClient} {method url : String} {s s' : History}
    {r : FetchResult} (h : c.fetch w method url s = (.ok r, s')) (hok : r.ok = false) :
    r.Blank := by
  rcases fetch_cases w c method url s with ⟨e, -, hrun⟩ | ⟨decision, -, -, hrun⟩ | ⟨-, hrun⟩
  · simp [hrun] at h
  · rw [hrun, Prod.mk.injEq, Except.ok.injEq] at h
    obtain ⟨rfl, -⟩ := h
    exact ⟨rfl, rfl, rfl⟩
  · rw [hrun, Prod.mk.injEq, Except.ok.injEq] at h
    obtain ⟨rfl, -⟩ := h
    exact read_blank hok

/-! ## What a fetch appends to the history -/

/-- The history may grow by requests that the client allows. -/
structure Permits (w : World) (c : ScopedHttpClient) (P : Event → Prop) : Prop
    extends World.Quiet P where
  request : ∀ method url outcome, c.scope.Allows w.regex url (some method) →
    P (.request method url outcome)

/-- A fetch that succeeds has read an answer to a request in scope. -/
def Answered (w : World) (c : ScopedHttpClient) (C : Event → Prop) (method url : String)
    (res : FetchResult) : Prop :=
  res.ok = true → ∃ s, c.scope.Allows w.regex url (some method) ∧
    C (.request method url (w.respond s method url)) ∧ res = c.read w url (w.respond s method url)

theorem logs_fetch {w : World} {c : ScopedHttpClient} {P C : Event → Prop} (h : Permits w c P)
    (method url : String) :
    Effect.Logs P C (c.fetch w method url) (Answered w c C method url) := by
  intro s
  rcases fetch_cases w c method url s with ⟨e, -, hrun⟩ | ⟨decision, -, -, hrun⟩ | ⟨hallows, hrun⟩
  · rw [hrun]
    exact ⟨[], rfl, by simp, by simp⟩
  · rw [hrun]
    refine ⟨[], rfl, by simp, fun _ res hres hok ↦ ?_⟩
    obtain rfl := Except.ok.inj hres
    simp [FetchResult.ok] at hok
  · rw [hrun]
    refine ⟨[_], rfl, List.forall_mem_singleton.mpr (h.request _ _ _ hallows),
      fun hC res hres _ ↦ ?_⟩
    exact ⟨s, hallows, List.forall_mem_singleton.mp hC, (Except.ok.inj hres).symm⟩

end Vantage.Adapters
