import Vantage.App.Build
import Vantage.Lib.CommandLine
import Vantage.Scan.EngineLoop

/-!
# What reaches an isolated engine

The policy of a scan, the request for an engine, the arguments of its tool and
the command of the sandbox are four descriptions of one run. The request is made
without options and without a proxy, and what is not in the request is in none
of the later ones.
-/

namespace Vantage.Scan

open Text Engines Adapters Adapters.Oss CommandLine

/-! ## Command lines -/

/-- `docker run`; the options end at the image. -/
def dockerGrammar : Grammar where
  isSwitch a := ["--rm", "--read-only"].contains a
  stops a := !startsWith a "-"

/-- The switches of the tools; a subcommand and its operand take no value either. -/
def switches : List (String × List String) :=
  [("nuclei", ["-jsonl", "-silent", "-no-color", "-duc"]),
   ("feroxbuster", ["--silent", "--json"]),
   ("katana", ["-jsonl", "-silent", "-no-color", "-headless", "-no-sandbox"]),
   ("httpx", ["-json", "-silent", "-no-color", "-tech-detect", "-title", "-status-code"]),
   ("zap", ["-I", "-a"]),
   ("gitleaks", ["dir", "/work", "--no-banner"]),
   ("subfinder", ["-oJ", "-silent"]),
   ("dnsx", ["-json", "-silent", "-a", "-aaaa", "-cname"]),
   ("tlsx", ["-json", "-silent", "-expired", "-self-signed"])]

def toolGrammar (engineId : String) : Grammar where
  isSwitch a := ((switches.lookup engineId).getD []).contains a
  stops _ := false

/-- The flags of the tools that name a proxy. -/
def proxyFlags : List String := ["-proxy", "-x", "--proxy", "-http-proxy"]

/-- `HTTP_PROXY=...` or `HTTPS_PROXY=...`, in any letter case. -/
def isProxyEntry (entry : String) : Bool :=
  startsWith (upper entry) "HTTP_PROXY=" || startsWith (upper entry) "HTTPS_PROXY="

/-- A command of the sandbox sets a proxy: for the container, or by a flag of the tool. -/
def CarriesProxy (engineId : String) (argv : List String) : Prop :=
  let container := read dockerGrammar (argv.drop 2)
  (∃ o ∈ container.1, o.1 = "--env" ∧ o.2.any isProxyEntry = true) ∨
    ∃ o ∈ (read (toolGrammar engineId) (container.2.drop 1)).1, o.1 ∈ proxyFlags

/-- Every denied tag is among those that the tool is told to leave out. -/
def ExcludesTags (tags : List String) (engineId : String) (args : List String) : Prop :=
  ∀ tag ∈ tags, ∃ value, ("-exclude-tags", some value) ∈ (read (toolGrammar engineId) args).1 ∧
    tag ∈ (value.toList.splitOn ',').map String.ofList

/-! ## The policy at the engine -/

/-- What the policy asks of the container of an engine. -/
structure PolicyReaches (docker : DockerSandboxRunner) (policy : ScanPolicy) (engineId : String)
    (spec : ContainerSpec) : Prop where
  tags : engineId = "nuclei" → ExcludesTags policy.templateTagsDenylist engineId spec.args
  proxy : spec.network = .scopedEgress → CarriesProxy engineId (docker.buildArgv spec)

/-! ## The command of the sandbox -/

variable {docker : DockerSandboxRunner} {spec : ContainerSpec} {request : EngineRunRequest}

def dockerOptions (spec : ContainerSpec) : List Setting :=
  let tmpfs := ":rw,size=" ++ toString spec.limits.tmpfsMb ++ "m,mode=1777"
  [("--rm", none), ("--read-only", none), ("--cap-drop", some "ALL"),
    ("--security-opt", some "no-new-privileges"), ("--user", some spec.user),
    ("--pids-limit", some (toString spec.limits.pids)), ("--cpus", some spec.limits.cpus.repr),
    ("--memory", some (toString spec.limits.memoryMb ++ "m")),
    ("--memory-swap", some (toString spec.limits.memoryMb ++ "m")),
    ("--workdir", some spec.workdir), ("--tmpfs", some (spec.workdir ++ tmpfs)),
    ("--tmpfs", some (spec.outputDir ++ tmpfs)),
    ("--network", some (if spec.network = .none then "none" else "vantage-egress"))] ++
  spec.env.map fun entry ↦ ("--env", some (entry.1 ++ "=" ++ entry.2))

theorem buildArgv_eq (docker : DockerSandboxRunner) (spec : ContainerSpec) :
    docker.buildArgv spec =
      [docker.dockerBin, "run"] ++ (render (dockerOptions spec) ++ spec.image :: spec.args) := by
  have henv : render (spec.env.map fun entry ↦ ("--env", some (entry.1 ++ "=" ++ entry.2))) =
      spec.env.flatMap fun entry ↦ ["--env", entry.1 ++ "=" ++ entry.2] := by
    simp [render, List.flatMap_map]
  unfold DockerSandboxRunner.buildArgv DockerSandboxRunner.runOptions dockerOptions
  rw [render_append, henv]
  cases spec.network <;> rfl

theorem fits_dockerOptions (spec : ContainerSpec) : ∀ o ∈ dockerOptions spec, Fits dockerGrammar o := by
  have hall : ∀ f ∈ [("--rm", true), ("--read-only", true), ("--cap-drop", false),
      ("--security-opt", false), ("--user", false), ("--pids-limit", false), ("--cpus", false),
      ("--memory", false), ("--memory-swap", false), ("--workdir", false), ("--tmpfs", false),
      ("--tmpfs", false), ("--network", false), ("--env", false)],
      dockerGrammar.stops f.1 = false ∧ dockerGrammar.isSwitch f.1 = f.2 := by
    decide
  intro o ho
  apply fits_iff.mpr
  apply hall
  rcases List.mem_append.mp ho with ho | ho
  · exact List.mem_append_left [("--env", false)] (List.mem_map_of_mem (f := shape) ho)
  · obtain ⟨entry, -, rfl⟩ := List.mem_map.mp ho
    change ("--env", false) ∈ _
    decide

theorem read_buildArgv (himage : startsWith spec.image "-" = false) :
    read dockerGrammar ((docker.buildArgv spec).drop 2) =
      (dockerOptions spec, spec.image :: spec.args) := by
  rw [buildArgv_eq]
  refine read_render (fits_dockerOptions spec) fun arg harg ↦ ?_
  obtain rfl : spec.image = arg := by simpa using harg
  simp [dockerGrammar, himage]

/-! ## The arguments of the tools -/

/-- The options that the adapters write when the request has no options and no proxy. -/
def written : List (String × List (String × Bool)) :=
  [("nuclei", [("-jsonl", true), ("-silent", true), ("-no-color", true), ("-duc", true),
      ("-rate-limit", false), ("-c", false), ("-u", false)]),
   ("ffuf", [("-u", false), ("-w", false), ("-of", false), ("-o", false), ("-rate", false),
      ("-t", false), ("-mc", false)]),
   ("katana", [("-jsonl", true), ("-silent", true), ("-no-color", true), ("-rate-limit", false),
      ("-concurrency", false), ("-depth", false), ("-u", false)]),
   ("httpx", [("-json", true), ("-silent", true), ("-no-color", true), ("-tech-detect", true),
      ("-title", true), ("-status-code", true), ("-rate-limit", false), ("-threads", false),
      ("-u", false)]),
   ("feroxbuster", [("--silent", true), ("--json", true), ("--wordlist", false),
      ("--rate-limit", false), ("--threads", false), ("--url", false)]),
   ("zap", [("-t", false), ("-J", false), ("-I", true), ("-m", false)]),
   ("gitleaks", [("dir", true), ("/work", true), ("--report-format", false),
      ("--report-path", false), ("--no-banner", true)]),
   ("subfinder", [("-oJ", true), ("-silent", true), ("-d", false)]),
   ("dnsx", [("-json", true), ("-silent", true), ("-a", true), ("-aaaa", true), ("-cname", true),
      ("-d", false)]),
   ("tlsx", [("-json", true), ("-silent", true), ("-expired", true), ("-self-signed", true),
      ("-u", false)])]

/-- The arguments are options of the list. -/
def Writes (engineId : String) (args : List String) : Prop :=
  ∃ options, args = render options ∧
    ∀ o ∈ options, shape o ∈ (written.lookup engineId).getD []

theorem written_spec : ∀ e ∈ written, ∀ f ∈ e.2, (toolGrammar e.1).isSwitch f.1 = f.2 ∧
    f.1 ∉ proxyFlags ∧ f.1 ≠ "-exclude-tags" := by
  decide +kernel

/-- A list of options, and one more option for each seed. -/
theorem writes_render {engineId : String} (options : List Setting) (seedUrls : List String)
    (hshapes : ∀ f ∈ options.map shape, f ∈ (written.lookup engineId).getD [])
    (hseeds : seedUrls = [] ∨ ("-u", false) ∈ (written.lookup engineId).getD []) :
    Writes engineId (render options ++ seedUrls.flatMap fun url ↦ ["-u", url]) := by
  refine ⟨options ++ seedUrls.map fun url ↦ ("-u", some url), ?_, fun o ho ↦ ?_⟩
  · simp [render, List.flatMap_map]
  · rcases List.mem_append.mp ho with ho | ho
    · exact hshapes _ (List.mem_map_of_mem ho)
    · obtain ⟨url, hurl, rfl⟩ := List.mem_map.mp ho
      exact hseeds.resolve_left (List.ne_nil_of_mem hurl)

theorem writes_render_nil {engineId : String} (options : List Setting)
    (hshapes : ∀ f ∈ options.map shape, f ∈ (written.lookup engineId).getD []) :
    Writes engineId (render options) := by
  simpa using writes_render options [] hshapes (Or.inl rfl)

section Arguments

variable {args : List String}

theorem nuclei_writes (hoptions : request.options = []) (hproxy : request.proxyUrl = none)
    (h : Nuclei.prepareArgs request = .ok args) : Writes "nuclei" args := by
  have hargs : Nuclei.prepareArgs request = .ok
      (render [("-jsonl", none), ("-silent", none), ("-no-color", none), ("-duc", none),
        ("-rate-limit", some (toString request.maxRequestsPerSecond.floor)),
        ("-c", some (toString request.maxConcurrency))] ++
        request.seedUrls.flatMap fun url ↦ ["-u", url]) := by
    simp [Nuclei.prepareArgs, hoptions, hproxy, Nuclei.listArg, Json.get, Json.getD, Json.lookup,
      orElse, render]
  rw [← Except.ok.inj (hargs.symm.trans h)]
  refine writes_render _ _ ?_ (Or.inr (by decide))
  simp only [List.map_cons, List.map_nil, shape, Option.isNone_none, Option.isNone_some]
  decide

theorem ffuf_writes (hproxy : request.proxyUrl = none) (h : Ffuf.prepareArgs request = .ok args) :
    Writes "ffuf" args := by
  have hargs : Ffuf.prepareArgs request = .ok
      (render [("-u", some (rstrip (request.seedUrls.head request.seedUrls_ne) '/' ++ "/FUZZ")),
        ("-w", some (wordlist request)), ("-of", some "json"), ("-o", some "/out/ffuf.json"),
        ("-rate", some (rateArg request)), ("-t", some (toString request.maxConcurrency)),
        ("-mc", some (join "," (interesting.map toString)))]) := by
    simp [Ffuf.prepareArgs, proxyArgs, hproxy, orElse, render]
  rw [← Except.ok.inj (hargs.symm.trans h)]
  refine writes_render_nil _ ?_
  simp only [List.map_cons, List.map_nil, shape, Option.isNone_none, Option.isNone_some]
  decide

theorem katana_writes (hoptions : request.options = []) (hproxy : request.proxyUrl = none)
    (h : Katana.prepareArgs request = .ok args) : Writes "katana" args := by
  have hdepth : pyInt (Json.getD request.options "max_depth" (.num 3)) = .ok 3 := by
    rw [hoptions]
    rfl
  have hargs : Katana.prepareArgs request = .ok
      (render [("-jsonl", none), ("-silent", none), ("-no-color", none),
        ("-rate-limit", some (rateArg request)),
        ("-concurrency", some (toString request.maxConcurrency)),
        ("-depth", some (toString (3 : ℤ)))] ++
        request.seedUrls.flatMap fun url ↦ ["-u", url]) := by
    rw [Katana.prepareArgs, hdepth]
    simp [hoptions, hproxy, proxyArgs, Json.get, Json.getD, Json.lookup, Json.truthy, orElse, render]
  rw [← Except.ok.inj (hargs.symm.trans h)]
  refine writes_render _ _ ?_ (Or.inr (by decide))
  simp only [List.map_cons, List.map_nil, shape, Option.isNone_none, Option.isNone_some]
  decide

theorem httpx_writes (h : Httpx.prepareArgs request = .ok args) : Writes "httpx" args := by
  have hargs : Httpx.prepareArgs request = .ok
      (render [("-json", none), ("-silent", none), ("-no-color", none), ("-tech-detect", none),
        ("-title", none), ("-status-code", none), ("-rate-limit", some (rateArg request)),
        ("-threads", some (toString request.maxConcurrency))] ++
        request.seedUrls.flatMap fun url ↦ ["-u", url]) := by
    simp [Httpx.prepareArgs, render]
  rw [← Except.ok.inj (hargs.symm.trans h)]
  refine writes_render _ _ ?_ (Or.inr (by decide))
  simp only [List.map_cons, List.map_nil, shape, Option.isNone_none, Option.isNone_some]
  decide

theorem feroxbuster_writes (hproxy : request.proxyUrl = none)
    (h : Feroxbuster.prepareArgs request = .ok args) : Writes "feroxbuster" args := by
  have hargs : Feroxbuster.prepareArgs request = .ok
      (render [("--silent", none), ("--json", none), ("--wordlist", some (wordlist request)),
        ("--rate-limit", some (rateArg request)),
        ("--threads", some (toString request.maxConcurrency)),
        ("--url", some (request.seedUrls.head request.seedUrls_ne))]) := by
    simp [Feroxbuster.prepareArgs, proxyArgs, hproxy, orElse, render]
  rw [← Except.ok.inj (hargs.symm.trans h)]
  refine writes_render_nil _ ?_
  simp only [List.map_cons, List.map_nil, shape, Option.isNone_none, Option.isNone_some]
  decide

theorem zap_writes (hoptions : request.options = []) (h : Zap.prepareArgs request = .ok args) :
    Writes "zap" args := by
  have hargs : Zap.prepareArgs request = .ok
      (render [("-t", some (request.seedUrls.head request.seedUrls_ne)),
        ("-J", some "/out/zap.json"), ("-I", none), ("-m", some "2")]) := by
    simp [Zap.prepareArgs, hoptions, Json.get, Json.getD, Json.lookup, Json.truthy, render]
  rw [← Except.ok.inj (hargs.symm.trans h)]
  refine writes_render_nil _ ?_
  simp only [List.map_cons, List.map_nil, shape, Option.isNone_none, Option.isNone_some]
  decide

theorem gitleaks_writes (h : Gitleaks.prepareArgs request = .ok args) :
    Writes "gitleaks" args := by
  have hargs : Gitleaks.prepareArgs request = .ok
      (render [("dir", none), ("/work", none), ("--report-format", some "json"),
        ("--report-path", some "/out/gitleaks.json"), ("--no-banner", none)]) := rfl
  rw [← Except.ok.inj (hargs.symm.trans h)]
  exact writes_render_nil _ (by decide)

/-- The tools that are given the host of the first seed. -/
theorem host_writes {engineId : String} (options : String → List Setting)
    (hshapes : ∀ host, ∀ f ∈ (options host).map shape, f ∈ (written.lookup engineId).getD [])
    (h : (seedHost request.seedUrls >>= fun host ↦ .ok (render (options host))) = .ok args) :
    Writes engineId args := by
  cases hhost : seedHost request.seedUrls with
  | error e =>
      rw [hhost] at h
      exact nomatch h
  | ok host =>
      rw [hhost] at h
      rw [← Except.ok.inj (show Except.ok (render (options host)) = .ok args from h)]
      exact writes_render_nil _ (hshapes host)

theorem subfinder_writes (h : Subfinder.prepareArgs request = .ok args) :
    Writes "subfinder" args := by
  apply host_writes (fun host ↦ [("-oJ", none), ("-silent", none), ("-d", some host)]) _ h
  intro host
  simp only [List.map_cons, List.map_nil, shape, Option.isNone_none, Option.isNone_some]
  decide

theorem dnsx_writes (h : Dnsx.prepareArgs request = .ok args) : Writes "dnsx" args := by
  apply host_writes (fun host ↦ [("-json", none), ("-silent", none), ("-a", none),
    ("-aaaa", none), ("-cname", none), ("-d", some host)]) _ h
  intro host
  simp only [List.map_cons, List.map_nil, shape, Option.isNone_none, Option.isNone_some]
  decide

theorem tlsx_writes (h : Tlsx.prepareArgs request = .ok args) : Writes "tlsx" args := by
  apply host_writes (fun host ↦ [("-json", none), ("-silent", none), ("-expired", none),
    ("-self-signed", none), ("-u", some host)]) _ h
  intro host
  simp only [List.map_cons, List.map_nil, shape, Option.isNone_none, Option.isNone_some]
  decide

end Arguments

/-- Every adapter writes options of its list only. -/
theorem adapter_writes {a : ContainerAdapter} (ha : a ∈ ossAdapters)
    (hoptions : request.options = []) (hproxy : request.proxyUrl = none) {args : List String}
    (h : a.prepareArgs request = .ok args) : Writes a.engine.id args := by
  simp only [ossAdapters, List.mem_cons, List.not_mem_nil, or_false] at ha
  rcases ha with rfl | rfl | rfl | rfl | rfl | rfl | rfl | rfl | rfl | rfl
  · exact nuclei_writes hoptions hproxy h
  · exact ffuf_writes hproxy h
  · exact katana_writes hoptions hproxy h
  · exact httpx_writes h
  · exact feroxbuster_writes hproxy h
  · exact zap_writes hoptions h
  · exact gitleaks_writes (show Gitleaks.prepareArgs request = .ok args from h)
  · exact subfinder_writes h
  · exact dnsx_writes h
  · exact tlsx_writes h

/-- A tool that is given such arguments is given no proxy and no tags to leave out. -/
theorem Writes.read_spec {engineId : String} {args : List String} (h : Writes engineId args) :
    ∀ o ∈ (read (toolGrammar engineId) args).1, o.1 ∉ proxyFlags ∧ o.1 ≠ "-exclude-tags" := by
  obtain ⟨options, rfl, hshapes⟩ := h
  have hknown : ∀ o ∈ options, (toolGrammar engineId).isSwitch (shape o).1 = (shape o).2 ∧
      o.1 ∉ proxyFlags ∧ o.1 ≠ "-exclude-tags" := by
    intro o ho
    have hmem := hshapes o ho
    cases hlookup : written.lookup engineId with
    | none => simp [hlookup] at hmem
    | some shapes =>
        rw [hlookup] at hmem
        obtain ⟨l₁, l₂, hwritten, -⟩ := List.lookup_eq_some_iff.mp hlookup
        exact written_spec (engineId, shapes) (by simp [hwritten]) _ hmem
  have hfits : ∀ o ∈ options, Fits (toolGrammar engineId) o := fun o ho ↦
    fits_iff.mpr ⟨rfl, (hknown o ho).1⟩
  have hread := read_render hfits (show ∀ arg ∈ ([] : List String).head?, _ from by simp)
  rw [List.append_nil] at hread
  rw [hread]
  exact fun o ho ↦ (hknown o ho).2

/-! ## The requests of the orchestrator -/

theorem request_bare {scan : Scan} {target : Target} {md : EngineMetadata} {task : PlannedTask}
    {seedUrls : List String} {runId : String}
    (h : EngineRunRequest.modelValidate runId (requestOf scan target md task seedUrls) =
      .ok request) : request.options = [] ∧ request.proxyUrl = none := by
  unfold EngineRunRequest.modelValidate at h
  split_ifs at h
  cases h
  exact ⟨rfl, rfl⟩

/-- The container of an adapter has access to the network, no variables, and an image
that is no option. -/
theorem prepareTarget_spec {a : ContainerAdapter} (ha : a ∈ ossAdapters)
    (h : a.prepareTarget request = .ok spec) :
    a.prepareArgs request = .ok spec.args ∧ spec.network = .scopedEgress ∧ spec.env = [] ∧
      startsWith spec.image "-" = false := by
  have himages : ∀ image ∈ ossAdapters.map fun a ↦ a.engine.image, startsWith image "-" = false := by
    decide +kernel
  unfold ContainerAdapter.prepareTarget at h
  cases hargs : a.prepareArgs request with
  | error e =>
      rw [hargs] at h
      exact nomatch h
  | ok args =>
      rw [hargs] at h
      obtain rfl : a.engine.baseSpec args = spec := Except.ok.inj h
      exact ⟨rfl, rfl, rfl, himages _ (List.mem_map_of_mem ha)⟩

/-- No container is told of a proxy, and none of the tags of a policy. -/
theorem handover_spec {a : ContainerAdapter} (ha : a ∈ ossAdapters)
    (hoptions : request.options = []) (hproxy : request.proxyUrl = none)
    (h : a.prepareTarget request = .ok spec) (docker : DockerSandboxRunner) (tags : List String) :
    ¬ CarriesProxy a.engine.id (docker.buildArgv spec) ∧
      (ExcludesTags tags a.engine.id spec.args ↔ tags = []) := by
  obtain ⟨hargs, -, henv, himage⟩ := prepareTarget_spec ha h
  have hread := (adapter_writes ha hoptions hproxy hargs).read_spec
  constructor
  · unfold CarriesProxy
    rw [read_buildArgv himage]
    rintro (⟨o, ho, hflag, -⟩ | ⟨o, ho, hflag⟩)
    · have hno : ∀ f ∈ (dockerOptions spec).map Prod.fst, f ≠ "--env" := by
        simp [dockerOptions, henv]
      exact hno o.1 (List.mem_map_of_mem ho) hflag
    · exact (hread o ho).1 hflag
  · constructor
    · intro hexcludes
      rw [List.eq_nil_iff_forall_not_mem]
      intro tag htag
      obtain ⟨value, hvalue, -⟩ := hexcludes tag htag
      exact (hread _ hvalue).2 rfl
    · rintro rfl
      simp [ExcludesTags]

/-- For every policy, target and plan, and for every engine that is given a container:
the policy does not reach it. -/
theorem not_policyReaches (docker : DockerSandboxRunner) {scan : Scan} {target : Target}
    {md : EngineMetadata} {task : PlannedTask} {seedUrls : List String} {runId : String}
    (hrequest : EngineRunRequest.modelValidate runId (requestOf scan target md task seedUrls) =
      .ok request)
    {a : ContainerAdapter} (ha : a ∈ ossAdapters) (hspec : a.prepareTarget request = .ok spec) :
    ¬ PolicyReaches docker scan.policy a.engine.id spec := by
  intro hreaches
  obtain ⟨hoptions, hproxy⟩ := request_bare hrequest
  obtain ⟨-, hnetwork, -, -⟩ := prepareTarget_spec ha hspec
  exact (handover_spec ha hoptions hproxy hspec docker []).1 (hreaches.proxy hnetwork)

/-! ## A scan with the default policy -/

/-- What the orchestrator asks of nuclei. -/
def nucleiRequest : RawEngineRunRequest :=
  requestOf demoScan demoTarget (Nuclei.engine.metadata "3.2.0" true) demoTask
    ["https://app.example/"]

theorem exists_nuclei_spec : ∃ request spec,
    EngineRunRequest.modelValidate "r" nucleiRequest = .ok request ∧
      Nuclei.adapter.prepareTarget request = .ok spec := by
  have hok : isIdentifier nucleiRequest.engineId = true ∧ nucleiRequest.capabilities ≠ [] ∧
      nucleiRequest.seedUrls ≠ [] ∧ 0 < nucleiRequest.maxRequestsPerSecond ∧
        1 ≤ nucleiRequest.maxConcurrency :=
    ⟨Nuclei.id_ok, List.cons_ne_nil _ _, List.cons_ne_nil _ _, demoRate_ok.1, demoConcurrency_ok.1⟩
  exact ⟨_, _, dif_pos hok, rfl⟩

theorem nuclei_mem_ossAdapters : Nuclei.adapter ∈ ossAdapters := List.mem_cons_self

theorem not_policyReaches_nuclei : ∃ request spec,
    EngineRunRequest.modelValidate "r" nucleiRequest = .ok request ∧
      Nuclei.adapter.prepareTarget request = .ok spec ∧
        ¬ PolicyReaches {} demoScan.policy "nuclei" spec := by
  obtain ⟨request, spec, hrequest, hspec⟩ := exists_nuclei_spec
  exact ⟨request, spec, hrequest, hspec,
    not_policyReaches {} hrequest nuclei_mem_ossAdapters hspec⟩

/-- The tags that the default policy denies are not among the arguments. -/
theorem nuclei_unguarded : ¬ ∀ request spec,
    EngineRunRequest.modelValidate "r" nucleiRequest = .ok request →
      Nuclei.adapter.prepareTarget request = .ok spec →
        PolicyReaches {} demoScan.policy "nuclei" spec := by
  intro hreaches
  obtain ⟨request, spec, hrequest, hspec⟩ := exists_nuclei_spec
  obtain ⟨hoptions, hproxy⟩ := request_bare hrequest
  obtain ⟨-, htags⟩ := handover_spec nuclei_mem_ossAdapters hoptions hproxy hspec {}
    demoScan.policy.templateTagsDenylist
  have hempty := htags.mp ((hreaches request spec hrequest hspec).tags rfl)
  exact absurd hempty (by decide)

end Vantage.Scan
