import Vantage.Domain.Common
import Vantage.Lib.Effect
import Vantage.Lib.Json
import Vantage.Scope.Engine

/-!
# The outside world

What first-party code asks of the network, the TLS inspector, the clock and
the source of identifiers, and what they answer. An answer may depend on all
that has happened before, so a run can meet any behaviour.
-/

namespace Vantage.Adapters

/-- A response of the HTTP library; redirects are not followed. -/
structure HttpResponse where
  url : String
  statusCode : ℤ
  headers : List (String × String)
  content : List UInt8
  encoding : Option String
  headers_nodup : (headers.map Prod.fst).Nodup

/-- The library answers or raises. -/
inductive HttpOutcome where
  | response (r : HttpResponse)
  | failure (message : String)

structure TlsInfo where
  host : String
  port : ℤ
  protocol : Option String
  cipher : Option String
  notAfter : Option Time
  issuerCn : Option String
  subjectCn : Option String
  selfSigned : Bool
  error : Option String

/-- The end of a process, unless it cannot be started. -/
inductive ProcessOutcome where
  | exited (code : ℤ) (stdout stderr : List UInt8)
  | timedOut (stdout stderr : List UInt8)
  | failure (message : String)

/-- What happened, with the answer that was given. -/
inductive Event where
  | request (method url : String) (outcome : HttpOutcome)
  | handshake (host : String) (port : ℤ) (info : TlsInfo)
  | process (argv : List String) (outcome : ProcessOutcome)
  | clock (now : Time)
  | newId (id : String)

/-- The latest event comes first. -/
abbrev History := List Event

structure World where
  respond : History → String → String → HttpOutcome
  inspect : History → String → ℤ → TlsInfo
  /-- A process that is started with the arguments, and stopped after the seconds given. -/
  process : History → List String → Option ℕ → ProcessOutcome
  /-- Whether a program is on the search path. -/
  which : History → String → Bool
  clock : History → Time
  newId : History → String
  /-- `bytes.decode(encoding, "replace")`, which raises on an unknown encoding. -/
  decode : String → List UInt8 → Except String String
  /-- `json.loads`. -/
  loads : String → Except PyError Json
  /-- The `re` module, for the patterns of scope rules. -/
  regex : Scope.RegexEngine String

abbrev Action := Effect PyError History

/-- `int` of a value. -/
def pyInt : Json → Except PyError ℤ
  | .bool b => .ok (if b then 1 else 0)
  | .num n => .ok n
  | .real x =>
      match x.trunc with
      | some n => .ok n
      | none => .error (if x.repr = "nan" then .valueError else .overflowError)
  | .str s =>
      match Text.parseInt s with
      | some n => .ok n
      | none => .error .valueError
  | _ => .error .typeError

namespace World

variable (w : World)

/-- `client.request(method, url)`; the exception it may raise is part of the outcome. -/
def send (method url : String) : Action HttpOutcome := fun h ↦
  let outcome := w.respond h method url
  (.ok outcome, .request method url outcome :: h)

def handshake (host : String) (port : ℤ) : Action TlsInfo := fun h ↦
  let info := w.inspect h host port
  (.ok info, .handshake host port info :: h)

def runProcess (argv : List String) (timeout : Option ℕ) : Action ProcessOutcome := fun h ↦
  let outcome := w.process h argv timeout
  (.ok outcome, .process argv outcome :: h)

def onPath (program : String) : Action Bool := fun h ↦ (.ok (w.which h program), h)

def utcnow : Action Time := fun h ↦ (.ok (w.clock h), .clock (w.clock h) :: h)

def freshId : Action String := fun h ↦ (.ok (w.newId h), .newId (w.newId h) :: h)

/-! ## What the clock and fresh identifiers append to the history -/

variable {w} {P C : Event → Prop}

/-- No condition is put on the clock and on fresh identifiers. -/
structure Quiet (P : Event → Prop) : Prop where
  clock : ∀ now, P (.clock now)
  newId : ∀ id, P (.newId id)

theorem logs_freshId (h : Quiet P) : Effect.Logs P C w.freshId fun _ ↦ True := fun log ↦
  ⟨[.newId (w.newId log)], rfl, by simp [h.newId], by simp⟩

theorem logs_utcnow (h : Quiet P) : Effect.Logs P C w.utcnow fun _ ↦ True := fun log ↦
  ⟨[.clock (w.clock log)], rfl, by simp [h.clock], by simp⟩

end World

/-- A network on which every connection is refused. -/
def refusingWorld : World where
  respond _ _ _ := .failure "Connection refused"
  inspect _ host port := ⟨host, port, none, none, none, none, none, false, some "Connection refused"⟩
  process _ _ _ := .failure "No such file or directory"
  which _ _ := false
  clock _ := 0
  newId _ := "0"
  decode _ _ := .error "unknown encoding"
  loads _ := .error .jsonDecodeError
  regex _ := none

end Vantage.Adapters
