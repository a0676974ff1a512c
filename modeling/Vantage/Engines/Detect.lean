import Vantage.Adapters.Oss.Base
import Vantage.Engines.LocalRunner
import Vantage.Lib.Appends
import Vantage.Lib.Regex

/-!
# Tools on the host

Each known tool that is on the search path is asked for its version; nothing
else is started.
-/

namespace Vantage.Engines

open Adapters Adapters.Oss Text

/-- How a tool is asked for its version, and where the number stands in the answer. -/
structure VersionProbe where
  binary : String
  args : List String
  regex : Regex

def number : Regex := .some1 isAsciiDigit

def threeNumbers : Regex := .group (.ofSeq [number, .lit ".", number, .lit ".", number])

def twoNumbers : Regex := .group (.ofSeq [number, .lit ".", number])

/-- `_VERSION_PROBES`. -/
def versionProbes : List (String × VersionProbe) :=
  [("nuclei", ⟨"nuclei", ["-version"], threeNumbers⟩),
   ("ffuf", ⟨"ffuf", ["-V"], threeNumbers⟩),
   ("feroxbuster", ⟨"feroxbuster", ["--version"], threeNumbers⟩),
   ("gobuster", ⟨"gobuster", ["version"], threeNumbers⟩),
   ("katana", ⟨"katana", ["-version"], threeNumbers⟩),
   ("httpx", ⟨"httpx", ["-version"], threeNumbers⟩),
   ("subfinder", ⟨"subfinder", ["-version"], threeNumbers⟩),
   ("dnsx", ⟨"dnsx", ["-version"], threeNumbers⟩),
   ("naabu", ⟨"naabu", ["-version"], threeNumbers⟩),
   ("tlsx", ⟨"tlsx", ["-version"], threeNumbers⟩),
   ("gitleaks", ⟨"gitleaks", ["version"], threeNumbers⟩),
   ("gau", ⟨"gau", ["--version"], threeNumbers⟩),
   ("schemathesis", ⟨"schemathesis", ["--version"], threeNumbers⟩),
   ("zap", ⟨"zap.sh", ["-version"], threeNumbers⟩),
   ("whatweb", ⟨"whatweb", ["--version"], twoNumbers⟩),
   ("wfuzz", ⟨"wfuzz", ["--version"], threeNumbers⟩),
   ("dirsearch", ⟨"dirsearch", ["--version"], threeNumbers⟩),
   ("sslyze", ⟨"sslyze", ["--version"], threeNumbers⟩),
   ("testssl", ⟨"testssl.sh", ["--version"], twoNumbers⟩),
   ("wapiti", ⟨"wapiti", ["--version"], threeNumbers⟩)]

structure Detect.Detection where
  engineId : String
  binary : String
  installed : Bool
  path : Option String
  version : Option String
  versionMatchesLock : Option Bool := none

variable (w : World) (host : LocalHost)

/-- `_probe`; both streams of the tool go to the first one. A tool that cannot be started, or that
does not answer in time, has no version. -/
def probe (p : VersionProbe) : Action (Option String × Option String) := do
  let h ← Effect.get
  match host.which h p.binary with
  | none => pure (none, none)
  | some path =>
      let outcome ← w.runProcess (path :: p.args) (some 15)
      match outcome with
      | .exited _ stdout _ =>
          let text ← Effect.ofExcept (decodeUtf8 w stdout)
          let found := p.regex.search text.toList
          pure (some path, found.map fun o ↦ String.ofList (o.group.getD []))
      | .timedOut _ _ => pure (some path, none)
      | .failure _ => pure (some path, none)

/-- Whether the version is the locked one, whose leading letters `v` do not count. -/
def matchesLock (locked : List (String × String)) (engineId : String) (version : Option String) :
    Option Bool :=
  match version, locked.lookup engineId with
  | some version, some pinned =>
      if version = "" then none
      else some (version = String.ofList (pinned.toList.dropWhile (· == 'v')))
  | _, _ => none

def detect (locked : List (String × String)) (engineId : String) : Action (List Detect.Detection) :=
  match versionProbes.lookup engineId with
  | none => pure []
  | some p => do
      let (path, version) ← probe w host p
      pure [⟨engineId, p.binary, path.isSome, path, version, matchesLock locked engineId version⟩]

/-- `detect_engines`; without identifiers, all that are known are looked for. -/
def detectEngines (engineIds : List String) (locked : List (String × String)) :
    Action (List Detect.Detection) :=
  Effect.collect (detect w host locked)
    (if engineIds = [] then versionProbes.map Prod.fst else engineIds)

/-! ## What detection starts -/

/-- A tool is asked for its version. -/
def AsksVersion : Event → Prop
  | .process argv _ => ∃ path, ∃ p ∈ versionProbes, argv = path :: p.2.args
  | _ => False

theorem logs_probe {C : Event → Prop} {p : VersionProbe} (hp : ∃ engineId, (engineId, p) ∈ versionProbes) :
    Effect.Logs AsksVersion C (probe w host p) fun _ ↦ True := by
  obtain ⟨engineId, hp⟩ := hp
  refine Effect.Logs.bind (Q := fun _ ↦ True) (Effect.Logs.silent (fun _ ↦ rfl) (by simp))
    fun before ↦ ?_
  cases host.which before p.binary with
  | none => exact Effect.Logs.pure (by simp)
  | some path =>
      refine Effect.Logs.bind (Q := fun _ ↦ True) ?_ fun outcome ↦ ?_
      · intro h
        refine ⟨[.process _ _], rfl, ?_, by simp⟩
        exact List.forall_mem_singleton.mpr ⟨path, _, hp, rfl⟩
      cases outcome with
      | exited code stdout stderr =>
          exact Effect.Logs.bind (Effect.Logs.ofExcept (Q := fun _ ↦ True) (by simp))
            fun text ↦ Effect.Logs.pure (by simp)
      | timedOut stdout stderr => exact Effect.Logs.pure (by simp)
      | failure message => exact Effect.Logs.pure (by simp)

theorem logs_detectEngines {C : Event → Prop} (engineIds : List String)
    (locked : List (String × String)) :
    Effect.Logs AsksVersion C (detectEngines w host engineIds locked) fun _ ↦ True := by
  refine Effect.Logs.mono (Effect.Logs.collect (R := fun _ ↦ True) fun engineId _ ↦ ?_)
    fun _ _ ↦ trivial
  unfold detect
  cases hprobe : versionProbes.lookup engineId with
  | none => exact Effect.Logs.pure (by simp)
  | some p =>
      obtain ⟨before, after, hprobes, -⟩ := List.lookup_eq_some_iff.mp hprobe
      have hmem : (engineId, p) ∈ versionProbes := by simp [hprobes]
      exact Effect.Logs.bind (logs_probe w host ⟨engineId, hmem⟩) fun _ ↦ Effect.Logs.pure (by simp)

end Vantage.Engines
