import Vantage.Engines.Sandbox
import Vantage.Lib.Replace
import Vantage.Lib.Utf8

/-!
# The runner without containers

Where there is no container tool, the program of an engine is started on the
host. Its sandbox paths are rewritten to those of a private directory.
-/

namespace Vantage.Engines

open Adapters Text

/-- `os.path.join`. -/
def pathJoin (path part : String) : String :=
  if startsWith part "/" then part
  else if path = "" || endsWith path "/" then path ++ part
  else path ++ "/" ++ part

theorem length_pathJoin {path part : String} (h : startsWith part "/" = false) :
    path.length + part.length ≤ (pathJoin path part).length := by
  rw [pathJoin, if_neg (by simp [h])]
  split_ifs
  · rw [String.length_append]
  · rw [String.length_append, String.length_append]
    omega

/-- What the runner asks of the host besides its processes. -/
structure LocalHost where
  /-- `shutil.which`. -/
  which : History → String → Option String
  /-- `tempfile.gettempdir()`. -/
  tempdir : String
  randomName : History → String
  /-- The regular files of a directory, with what is in them. -/
  filesIn : History → String → List (String × List UInt8)

structure LocalSubprocessRunner where
  host : LocalHost
  allowMissing : Bool := true

namespace LocalSubprocessRunner

/-- `TemporaryDirectory(prefix="vantage-eng-")`. -/
def temporaryDirectory (parent random : String) : String :=
  pathJoin parent ("vantage-eng-" ++ random)

def workdir (tmp : String) : String := pathJoin tmp "work"

def outdir (tmp : String) : String := pathJoin tmp "out"

/-- `_rewrite`. -/
def rewrite (arg : String) (spec : ContainerSpec) (workdir outdir : String) : String :=
  replace (replace arg spec.outputDir outdir) spec.workdir workdir

def binaryOf (spec : ContainerSpec) : String :=
  if orElse spec.binary "" = "" then
    String.ofList (cut ':' (afterLast '/' spec.image.toList)).1
  else orElse spec.binary ""

variable (w : World) (r : LocalSubprocessRunner)

def available : Action Bool := pure true

/-- `_resolve`. -/
def resolve (spec : ContainerSpec) : Action (Option String) := do
  let h ← Effect.get
  pure (if binaryOf spec = "" then none else r.host.which h (binaryOf spec))

def missing (spec : ContainerSpec) : SandboxResult :=
  let program := if orElse spec.binary "" = "" then spec.image else orElse spec.binary ""
  { exitCode := some 127
    timedOut := false
    stdout := []
    stderr := Utf8.encode ("engine binary not found on PATH: " ++ program).toList }

/-- The output that is kept of a process. -/
def resultOf (spec : ContainerSpec) (files : List (String × List UInt8)) (exitCode : Option ℤ)
    (stdout stderr : List UInt8) : SandboxResult :=
  let cap := spec.limits.maxOutputBytes
  { exitCode := exitCode
    timedOut := exitCode.isNone
    stdout := stdout.take cap
    stderr := stderr.take cap
    outputFiles := files.map fun file ↦ (file.1, file.2.take cap)
    outputTruncated := cap < stdout.length }

def run (spec : ContainerSpec) : Action SandboxResult := do
  let program ← r.resolve spec
  match program with
  | none => pure (missing spec)
  | some path =>
      let before ← Effect.get
      let tmp := temporaryDirectory r.host.tempdir (r.host.randomName before)
      let args := spec.args.map fun arg ↦ rewrite arg spec (workdir tmp) (outdir tmp)
      let outcome ← w.runProcess (path :: args) (some spec.limits.timeoutSeconds)
      let after ← Effect.get
      let files := r.host.filesIn after (outdir tmp)
      match outcome with
      | .exited code stdout stderr => pure (resultOf spec files (some code) stdout stderr)
      | .timedOut stdout stderr => pure (resultOf spec files none stdout stderr)
      | .failure message => Effect.raise (.other message)

def runner : SandboxRunner := ⟨available, r.run w⟩

/-! ## Processes -/

/-- A run starts at most one process, whose arguments are the rewritten ones. -/
theorem logs_run {C : Event → Prop} (spec : ContainerSpec) :
    Effect.Logs (fun ev ↦ ∀ argv outcome, ev = .process argv outcome →
        ∃ path random, argv = path :: spec.args.map fun arg ↦
          rewrite arg spec (workdir (temporaryDirectory r.host.tempdir random))
            (outdir (temporaryDirectory r.host.tempdir random)))
      C (r.run w spec) fun _ ↦ True := by
  refine Effect.Logs.bind (Q := fun _ ↦ True) (Effect.Logs.silent (fun _ ↦ rfl) (by simp))
    fun program ↦ ?_
  cases program with
  | none => exact Effect.Logs.pure (by simp)
  | some path =>
      refine Effect.Logs.bind (Q := fun _ ↦ True) (Effect.Logs.silent (fun _ ↦ rfl) (by simp))
        fun before ↦ ?_
      refine Effect.Logs.bind (Q := fun _ ↦ True) ?_ fun outcome ↦ ?_
      · intro h
        refine ⟨[.process _ _], rfl, ?_, by simp⟩
        rintro ev hev argv outcome rfl
        rw [List.mem_singleton, Event.process.injEq] at hev
        exact ⟨path, r.host.randomName before, hev.1⟩
      refine Effect.Logs.bind (Q := fun _ ↦ True) (Effect.Logs.silent (fun _ ↦ rfl) (by simp))
        fun after ↦ ?_
      cases outcome with
      | exited code stdout stderr => exact Effect.Logs.pure (by simp)
      | timedOut stdout stderr => exact Effect.Logs.pure (by simp)
      | failure message => exact Effect.Logs.silent (fun _ ↦ rfl) (by simp)

/-! ## What is rewritten -/

section Rewrite

variable {spec : ContainerSpec} (parent random : String)

theorem length_temporaryDirectory : 12 ≤ (temporaryDirectory parent random).length := by
  have hrelative : startsWith ("vantage-eng-" ++ random) "/" = false := by
    simp [startsWith, List.isPrefixOf]
  have hlen : _ ≤ (pathJoin parent _).length := length_pathJoin hrelative
  rw [String.length_append] at hlen
  have hprefix : "vantage-eng-".length = 12 := by decide
  change 12 ≤ (pathJoin parent _).length
  omega

/-- The private directories have longer names than the paths of the sandbox. -/
theorem length_lt_outdir :
    "/out".length < (outdir (temporaryDirectory parent random)).length := by
  have htmp := length_temporaryDirectory parent random
  have hlen : _ + "out".length ≤ (outdir (temporaryDirectory parent random)).length :=
    length_pathJoin (by decide)
  have hout : "/out".length = 4 := by decide
  omega

theorem length_lt_workdir :
    "/work".length < (workdir (temporaryDirectory parent random)).length := by
  have htmp := length_temporaryDirectory parent random
  have hlen : _ + "work".length ≤ (workdir (temporaryDirectory parent random)).length :=
    length_pathJoin (by decide)
  have hwork : "/work".length = 5 := by decide
  omega

/-- The paths of the sandbox are the default ones. -/
structure DefaultPaths (spec : ContainerSpec) : Prop where
  outputDir : spec.outputDir = "/out"
  workdir : spec.workdir = "/work"

variable {parent random}

theorem rewrite_eq_self_iff (h : DefaultPaths spec) (arg : String) :
    rewrite arg spec (workdir (temporaryDirectory parent random))
        (outdir (temporaryDirectory parent random)) = arg ↔
      contains arg "/out" = false ∧ contains arg "/work" = false := by
  have hiff := replace_append_replace_eq_iff (t := "/out") (v := "/work") (by decide) (by decide)
    (length_lt_outdir parent random) (length_lt_workdir parent random) "" arg
  rw [String.empty_append, String.empty_append] at hiff
  rw [rewrite, h.outputDir, h.workdir, hiff]

theorem rewrite_output_iff (h : DefaultPaths spec) (name : String) :
    rewrite ("/out/" ++ name) spec (workdir (temporaryDirectory parent random))
        (outdir (temporaryDirectory parent random)) =
          outdir (temporaryDirectory parent random) ++ "/" ++ name ↔
      contains ("/" ++ name) "/out" = false ∧
        contains (outdir (temporaryDirectory parent random) ++ "/" ++ name) "/work" = false := by
  have hpath : "/out/" ++ name = "/out" ++ ("/" ++ name) := by
    rw [← String.append_assoc]
    rfl
  rw [rewrite, h.outputDir, h.workdir, hpath, replace_append (by decide), String.append_assoc]
  exact replace_append_replace_eq_iff (by decide) (by decide) (length_lt_outdir parent random)
    (length_lt_workdir parent random) _ _

theorem rewrite_work (h : DefaultPaths spec) (workdir outdir : String) :
    rewrite "/work" spec workdir outdir = workdir := by
  have hout : replace "/work" "/out" outdir = "/work" :=
    replace_of_not_contains (by decide) (by decide)
  have hwork : replace ("/work" ++ "") "/work" workdir = workdir ++ replace "" "/work" workdir :=
    replace_append (by decide) ""
  rw [String.append_empty] at hwork
  rw [rewrite, h.outputDir, h.workdir, hout, hwork]
  exact String.append_empty

end Rewrite

end LocalSubprocessRunner

end Vantage.Engines
