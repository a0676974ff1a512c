import Vantage.App.Images
import Vantage.Engines.LocalRunner

/-!
# What the local runner does to the arguments

The arguments of the container engines name sandbox paths and URLs, and both
are rewritten alike.
-/

namespace Vantage

open Adapters Adapters.Oss Engines Engines.LocalSubprocessRunner Text

variable {a : ContainerAdapter} {request : EngineRunRequest} {spec : ContainerSpec}

/-- The content discovery of ffuf puts its keyword behind a seed. -/
def UrlArgument (a : ContainerAdapter) (request : EngineRunRequest) (arg : String) : Prop :=
  arg ∈ request.seedUrls ∨
    a.engine.id = "ffuf" ∧ ∃ url ∈ request.seedUrls, startsWith arg url = true

/-- Of the arguments of an adapter only the sandbox paths are rewritten. -/
structure RewritesOnlyPaths (a : ContainerAdapter) (request : EngineRunRequest)
    (spec : ContainerSpec) (tmp : String) : Prop where
  url : ∀ arg ∈ spec.args, UrlArgument a request arg →
    rewrite arg spec (workdir tmp) (outdir tmp) = arg
  output : ∀ name, "/out/" ++ name ∈ spec.args →
    rewrite ("/out/" ++ name) spec (workdir tmp) (outdir tmp) = outdir tmp ++ "/" ++ name
  work : "/work" ∈ spec.args → rewrite "/work" spec (workdir tmp) (outdir tmp) = workdir tmp

/-- No sandbox path occurs where it is not meant: in a URL, behind the output directory, or
in the name of the private directory that takes its place. -/
structure PathsApart (a : ContainerAdapter) (request : EngineRunRequest) (spec : ContainerSpec)
    (tmp : String) : Prop where
  url : ∀ arg ∈ spec.args, UrlArgument a request arg →
    contains arg "/out" = false ∧ contains arg "/work" = false
  output : ∀ name, "/out/" ++ name ∈ spec.args →
    contains ("/" ++ name) "/out" = false ∧ contains (outdir tmp ++ "/" ++ name) "/work" = false

theorem defaultPaths_of_prepareTarget (h : a.prepareTarget request = .ok spec) :
    DefaultPaths spec := by
  obtain ⟨args, -, hspec⟩ := ExceptList.exists_of_bind_ok h
  rw [← Except.ok.inj hspec]
  exact ⟨rfl, rfl⟩

/-- The sandbox paths and nothing else are rewritten just when the paths stand apart. -/
theorem rewritesOnlyPaths_iff (h : a.prepareTarget request = .ok spec)
    (parent random : String) :
    RewritesOnlyPaths a request spec (temporaryDirectory parent random) ↔
      PathsApart a request spec (temporaryDirectory parent random) := by
  have hpaths := defaultPaths_of_prepareTarget h
  constructor
  · rintro ⟨hurl, houtput, -⟩
    exact ⟨fun arg harg hseed ↦ (rewrite_eq_self_iff hpaths arg).mp (hurl arg harg hseed),
      fun name hname ↦ (rewrite_output_iff hpaths name).mp (houtput name hname)⟩
  · rintro ⟨hurl, houtput⟩
    exact ⟨fun arg harg hseed ↦ (rewrite_eq_self_iff hpaths arg).mpr (hurl arg harg hseed),
      fun name hname ↦ (rewrite_output_iff hpaths name).mpr (houtput name hname),
      fun _ ↦ rewrite_work hpaths _ _⟩

/-! ## Two seeds -/

def seededRequest (url : String) : EngineRunRequest :=
  { demoRequest with
    seedUrls := [url]
    seedUrls_ne := List.cons_ne_nil _ _ }

def nucleiSpec (url : String) : ContainerSpec :=
  Nuclei.engine.baseSpec ["-jsonl", "-silent", "-no-color", "-duc", "-rate-limit", "10", "-c", "4",
    "-u", url]

theorem prepareTarget_nuclei (url : String) :
    Nuclei.adapter.prepareTarget (seededRequest url) = .ok (nucleiSpec url) := by
  have hrate : toString (seededRequest url).maxRequestsPerSecond.floor = "10" := by
    change toString (10 : ℚ).floor = "10"
    decide +kernel
  have hconcurrency : toString (seededRequest url).maxConcurrency = "4" := by
    change toString (4 : ℕ) = "4"
    decide +kernel
  have hargs : Nuclei.prepareArgs (seededRequest url) = .ok (nucleiSpec url).args := by
    rw [Nuclei.prepareArgs, hrate, hconcurrency]
    rfl
  exact congrArg (· >>= fun args ↦ .ok (Nuclei.engine.baseSpec args)) hargs

theorem pathsApart_nuclei :
    PathsApart Nuclei.adapter (seededRequest "https://app.example/")
      (nucleiSpec "https://app.example/") (temporaryDirectory "/tmp" "q1w2e3r4") where
  url := by
    have hall : ∀ arg ∈ (nucleiSpec "https://app.example/").args,
        contains arg "/out" = false ∧ contains arg "/work" = false := by decide +kernel
    exact fun arg harg _ ↦ hall arg harg
  output name hname := by
    have hall : ∀ arg ∈ (nucleiSpec "https://app.example/").args,
        startsWith arg "/out/" = false := by decide +kernel
    exact absurd (hall _ hname) (by simp)

theorem rewritesOnlyPaths_nuclei :
    RewritesOnlyPaths Nuclei.adapter (seededRequest "https://app.example/")
      (nucleiSpec "https://app.example/") (temporaryDirectory "/tmp" "q1w2e3r4") :=
  (rewritesOnlyPaths_iff (prepareTarget_nuclei _) "/tmp" "q1w2e3r4").mpr pathsApart_nuclei

/-- A seed that begins with the name of the output directory is another URL in the end. -/
theorem not_rewritesOnlyPaths_output :
    Nuclei.adapter ∈ ossAdapters ∧
      Nuclei.adapter.prepareTarget (seededRequest "https://app.example/output") =
        .ok (nucleiSpec "https://app.example/output") ∧
      rewrite "https://app.example/output" (nucleiSpec "https://app.example/output")
          (workdir (temporaryDirectory "/tmp" "q1w2e3r4"))
          (outdir (temporaryDirectory "/tmp" "q1w2e3r4")) =
        "https://app.example/tmp/vantage-eng-q1w2e3r4/output" ∧
      ¬ RewritesOnlyPaths Nuclei.adapter (seededRequest "https://app.example/output")
        (nucleiSpec "https://app.example/output") (temporaryDirectory "/tmp" "q1w2e3r4") := by
  have hrewrite : rewrite "https://app.example/output" (nucleiSpec "https://app.example/output")
      (workdir (temporaryDirectory "/tmp" "q1w2e3r4"))
      (outdir (temporaryDirectory "/tmp" "q1w2e3r4")) =
        "https://app.example/tmp/vantage-eng-q1w2e3r4/output" := by decide +kernel
  refine ⟨nuclei_mem, prepareTarget_nuclei _, hrewrite, fun h ↦ ?_⟩
  have hsame := h.url "https://app.example/output" (by simp [nucleiSpec, ContainerEngine.baseSpec])
    (Or.inl (List.mem_singleton_self _))
  rw [hrewrite] at hsame
  exact absurd hsame (by decide)

end Vantage
