import Vantage.Adapters.World
import Vantage.Domain.Engine

/-!
# Sandbox runners

A container runner turns the description of one isolated execution into a
command line of the container tool.
-/

namespace Vantage.Engines

open Adapters

structure ContainerSpec where
  image : String
  args : List String
  network : NetworkMode
  limits : ResourceLimits
  env : List (String × String) := []
  outputDir : String := "/out"
  workdir : String := "/work"
  user : String := "65532:65532"
  binary : Option String := none

structure SandboxResult where
  exitCode : Option ℤ
  timedOut : Bool
  stdout : List UInt8
  stderr : List UInt8
  outputFiles : List (String × List UInt8) := []
  outputTruncated : Bool := false

structure SandboxRunner where
  available : Action Bool
  run : ContainerSpec → Action SandboxResult

structure DockerSandboxRunner where
  dockerBin : String := "docker"

namespace DockerSandboxRunner

variable (w : World) (d : DockerSandboxRunner)

def available : Action Bool := do
  let found ← w.onPath d.dockerBin
  if !found then pure false
  else
    let outcome ← w.runProcess [d.dockerBin, "info"] none
    match outcome with
    | .exited code _ _ => pure (code = 0)
    | .timedOut _ _ => pure false
    | .failure message => Effect.raise (.other message)

/-- The arguments in front of the image. -/
def runOptions (spec : ContainerSpec) : List String :=
  let tmpfs := ":rw,size=" ++ toString spec.limits.tmpfsMb ++ "m,mode=1777"
  [d.dockerBin, "run", "--rm", "--read-only", "--cap-drop", "ALL",
    "--security-opt", "no-new-privileges", "--user", spec.user,
    "--pids-limit", toString spec.limits.pids, "--cpus", spec.limits.cpus.repr,
    "--memory", toString spec.limits.memoryMb ++ "m",
    "--memory-swap", toString spec.limits.memoryMb ++ "m",
    "--workdir", spec.workdir, "--tmpfs", spec.workdir ++ tmpfs,
    "--tmpfs", spec.outputDir ++ tmpfs] ++
  (match spec.network with
    | .none => ["--network", "none"]
    | .scopedEgress => ["--network", "vantage-egress"]) ++
  spec.env.flatMap fun entry ↦ ["--env", entry.1 ++ "=" ++ entry.2]

/-- `_build_argv`. -/
def buildArgv (spec : ContainerSpec) : List String := d.runOptions spec ++ spec.image :: spec.args

/-- What stands behind the options of a command. -/
def ImageArgument (argv : List String) (image : String) : Prop :=
  ∃ spec, argv = d.buildArgv spec ∧ spec.image = image

/-- The output that is kept of a process. -/
def resultOf (spec : ContainerSpec) (exitCode : Option ℤ) (stdout stderr : List UInt8) :
    SandboxResult :=
  let cap := spec.limits.maxOutputBytes
  { exitCode := exitCode
    timedOut := exitCode.isNone
    stdout := stdout.take cap
    stderr := stderr.take cap
    outputTruncated := cap < stdout.length }

def run (spec : ContainerSpec) : Action SandboxResult := do
  let outcome ← w.runProcess (d.buildArgv spec) (some spec.limits.timeoutSeconds)
  match outcome with
  | .exited code stdout stderr => pure (resultOf spec (some code) stdout stderr)
  | .timedOut stdout stderr => pure (resultOf spec none stdout stderr)
  | .failure message => Effect.raise (.other message)

def runner : SandboxRunner := ⟨d.available w, d.run w⟩

/-- The image argument of a command without variables is the image of its description. -/
theorem imageArgument_buildArgv {spec : ContainerSpec} (henv : spec.env = [])
    (himage : spec.image ≠ "--env") {image : String}
    (h : d.ImageArgument (d.buildArgv spec) image) : image = spec.image := by
  obtain ⟨spec', hargv, rfl⟩ := h
  unfold buildArgv runOptions at hargv
  rw [List.append_assoc, List.append_assoc, List.append_assoc, List.append_assoc] at hargv
  have hoptions := (List.append_inj hargv rfl).2
  have hrest : (spec.env.flatMap fun entry ↦ ["--env", entry.1 ++ "=" ++ entry.2]) ++
        spec.image :: spec.args =
      (spec'.env.flatMap fun entry ↦ ["--env", entry.1 ++ "=" ++ entry.2]) ++
        spec'.image :: spec'.args := by
    refine (List.append_inj hoptions ?_).2
    cases spec.network <;> cases spec'.network <;> rfl
  rw [henv] at hrest
  cases henv' : spec'.env with
  | nil =>
      rw [henv'] at hrest
      exact (List.cons.inj hrest).1.symm
  | cons entry env =>
      rw [henv'] at hrest
      exact absurd (List.cons.inj hrest).1 himage

end DockerSandboxRunner

end Vantage.Engines
