import Vantage.Scan.PolicyReach

/-!
# The rate that reaches a tool

The rate limit of a target is a rational. The adapters of five tools write its
whole part on the command line, where zero means that there is no limit.
-/

namespace Vantage.Scan

open Text Engines Adapters Adapters.Oss CommandLine

/-- The adapters that hand over the rate, with the option that takes it. -/
def rateFlags : List (ContainerAdapter × String) :=
  [(Nuclei.adapter, "-rate-limit"), (Katana.adapter, "-rate-limit"),
   (Httpx.adapter, "-rate-limit"), (Ffuf.adapter, "-rate"),
   (Feroxbuster.adapter, "--rate-limit")]

/-- The values that a tool reads for an option. -/
def valuesOf (engineId flag : String) (args : List String) : List (Option String) :=
  ((read (toolGrammar engineId) args).1.filter fun o ↦ o.1 = flag).map Prod.snd

/-- A positive number of requests per second that is no higher than the limit, or one. -/
def KeepsTo (rate : ℚ) (value : String) : Prop :=
  ∃ n : ℕ, value = toString n ∧ 0 < n ∧ (n : ℚ) ≤ max rate 1

/-- The tool reads one rate, and it keeps to the limit. -/
def RateHonoured (rate : ℚ) (engineId flag : String) (args : List String) : Prop :=
  ∃ value, valuesOf engineId flag args = [some value] ∧ KeepsTo rate value

/-! ## The whole part of a rate -/

theorem eq_zero_of_toString {n : ℕ} (h : toString n = "0") : n = 0 := by
  have hrepr : n.repr = "0" := h
  have hlength : n.repr.length ≤ 1 := by rw [hrepr]; decide
  have hdigit : n < 10 := by simpa using (Nat.length_repr_le_iff Nat.one_pos).mp hlength
  interval_cases n <;> first | rfl | exact absurd hrepr (by decide)

theorem keepsTo_floor_iff {rate : ℚ} (hpos : 0 < rate) :
    KeepsTo rate (toString rate.floor) ↔ 1 ≤ rate := by
  have hfloor : rate.floor = ((rate.floor.toNat : ℕ) : ℤ) :=
    (Int.toNat_of_nonneg (Rat.le_floor_iff.mpr (by exact_mod_cast hpos.le))).symm
  have hprint : toString rate.floor = toString rate.floor.toNat := by
    conv_lhs => rw [hfloor]
    rfl
  rw [hprint]
  constructor
  · rintro ⟨n, hn, hpositive, -⟩
    by_contra hslow
    have hzero : rate.floor.toNat = 0 := by
      by_contra hne
      have hone : 1 ≤ rate.floor := by omega
      exact hslow (by exact_mod_cast Rat.le_floor_iff.mp hone)
    rw [hzero] at hn
    exact hpositive.ne' (eq_zero_of_toString hn.symm)
  · intro hrate
    have hone : 1 ≤ rate.floor := Rat.le_floor_iff.mpr (by exact_mod_cast hrate)
    refine ⟨rate.floor.toNat, rfl, by omega, le_max_of_le_left ?_⟩
    have hle := Rat.floor_le rate
    rw [hfloor] at hle
    exact_mod_cast hle

/-! ## The other options -/

/-- The options that these adapters write besides the rate, whatever is requested. -/
def besides : List (String × List (String × Bool)) :=
  [("nuclei", [("-jsonl", true), ("-silent", true), ("-no-color", true), ("-duc", true),
      ("-c", false), ("-tags", false), ("-exclude-tags", false), ("-u", false),
      ("-proxy", false)]),
   ("katana", [("-jsonl", true), ("-silent", true), ("-no-color", true), ("-concurrency", false),
      ("-depth", false), ("-headless", true), ("-no-sandbox", true), ("-u", false),
      ("-proxy", false)]),
   ("httpx", [("-json", true), ("-silent", true), ("-no-color", true), ("-tech-detect", true),
      ("-title", true), ("-status-code", true), ("-threads", false), ("-u", false)]),
   ("ffuf", [("-u", false), ("-w", false), ("-of", false), ("-o", false), ("-t", false),
      ("-mc", false), ("-x", false)]),
   ("feroxbuster", [("--silent", true), ("--json", true), ("--wordlist", false),
      ("--threads", false), ("--url", false), ("--proxy", false)])]

def others (engineId : String) : List (String × Bool) := (besides.lookup engineId).getD []

/-- The tools know which of the options take a value, and none of the others is the rate. -/
theorem others_spec : ∀ e ∈ [("nuclei", "-rate-limit"), ("katana", "-rate-limit"),
    ("httpx", "-rate-limit"), ("ffuf", "-rate"), ("feroxbuster", "--rate-limit")],
    (toolGrammar e.1).isSwitch e.2 = false ∧
      ∀ f ∈ others e.1, (toolGrammar e.1).isSwitch f.1 = f.2 ∧ f.1 ≠ e.2 := by
  decide +kernel

theorem rateFlags_ids : rateFlags.map (fun e ↦ (e.1.engine.id, e.2)) =
    [("nuclei", "-rate-limit"), ("katana", "-rate-limit"), ("httpx", "-rate-limit"),
      ("ffuf", "-rate"), ("feroxbuster", "--rate-limit")] := rfl

variable {request : EngineRunRequest} {args : List String} {engineId flag : String}

/-- The options are written from the list. -/
def Among (engineId : String) (options : List Setting) : Prop :=
  ∀ o ∈ options, shape o ∈ others engineId

theorem among_append {a b : List Setting} :
    Among engineId (a ++ b) ↔ Among engineId a ∧ Among engineId b := List.forall_mem_append

/-- The rate is one of the options, and the others are in the list. -/
def WritesRate (engineId flag value : String) (args : List String) : Prop :=
  ∃ before after, args = render (before ++ (flag, some value) :: after) ∧
    Among engineId before ∧ Among engineId after

theorem valuesOf_of_writesRate {value : String}
    (hspec : (toolGrammar engineId).isSwitch flag = false ∧
      ∀ f ∈ others engineId, (toolGrammar engineId).isSwitch f.1 = f.2 ∧ f.1 ≠ flag)
    (h : WritesRate engineId flag value args) : valuesOf engineId flag args = [some value] := by
  obtain ⟨before, after, rfl, hbefore, hafter⟩ := h
  obtain ⟨hflag, hothers⟩ := hspec
  have hfits : ∀ o ∈ before ++ (flag, some value) :: after, Fits (toolGrammar engineId) o := by
    intro o ho
    rcases List.mem_append.mp ho with ho | ho
    · exact fits_iff.mpr ⟨rfl, (hothers _ (hbefore o ho)).1⟩
    · rcases List.mem_cons.mp ho with rfl | ho
      · exact fits_iff.mpr ⟨rfl, hflag⟩
      · exact fits_iff.mpr ⟨rfl, (hothers _ (hafter o ho)).1⟩
  have hread := read_render hfits (show ∀ arg ∈ ([] : List String).head?, _ from by simp)
  have hnone : ∀ {options : List Setting}, Among engineId options →
      (options.filter fun o ↦ o.1 = flag) = [] := by
    intro options hoptions
    rw [List.filter_eq_nil_iff]
    intro o ho hsame
    exact (hothers _ (hoptions o ho)).2 (of_decide_eq_true hsame)
  rw [List.append_nil] at hread
  rw [valuesOf, hread, List.filter_append, hnone hbefore, List.filter_cons_of_pos (by simp),
    hnone hafter]
  rfl

/-! ## What the adapters write -/

def listSettings (flag : String) : Json → List Setting
  | .arr (item :: items) => [(flag, some (join "," ((item :: items).map Json.pyStr)))]
  | _ => []

theorem render_listSettings (flag : String) (value : Json) :
    Nuclei.listArg flag value = render (listSettings flag value) := by
  cases value with
  | arr items => cases items <;> rfl
  | _ => rfl

theorem among_listSettings (value : Json) (h : (flag, false) ∈ others engineId) :
    Among engineId (listSettings flag value) := by
  intro o ho
  unfold listSettings at ho
  split at ho
  · obtain rfl := List.mem_singleton.mp ho
    exact h
  · exact absurd ho List.not_mem_nil

def proxySettings (flag : String) (request : EngineRunRequest) : List Setting :=
  if orElse request.proxyUrl "" = "" then [] else [(flag, some (orElse request.proxyUrl ""))]

theorem render_proxySettings (flag : String) (request : EngineRunRequest) :
    proxyArgs flag request = render (proxySettings flag request) := by
  unfold proxyArgs proxySettings
  split_ifs <;> rfl

theorem among_proxySettings (request : EngineRunRequest) (h : (flag, false) ∈ others engineId) :
    Among engineId (proxySettings flag request) := by
  intro o ho
  unfold proxySettings at ho
  split_ifs at ho
  · exact absurd ho List.not_mem_nil
  · obtain rfl := List.mem_singleton.mp ho
    exact h

def seedSettings (request : EngineRunRequest) : List Setting :=
  request.seedUrls.map fun url ↦ ("-u", some url)

theorem render_seedSettings (request : EngineRunRequest) :
    (request.seedUrls.flatMap fun url ↦ ["-u", url]) = render (seedSettings request) := by
  simp [render, seedSettings, List.flatMap_map]

theorem among_seedSettings (request : EngineRunRequest) (h : ("-u", false) ∈ others engineId) :
    Among engineId (seedSettings request) := by
  intro o ho
  obtain ⟨url, -, rfl⟩ := List.mem_map.mp ho
  exact h

/-- Options whose names are known are looked up by their shapes. -/
theorem among_of_shapes {options : List Setting}
    (h : ∀ f ∈ options.map shape, f ∈ others engineId) :
    Among engineId options := fun _ ho ↦ h _ (List.mem_map_of_mem ho)

theorem nuclei_writesRate (h : Nuclei.prepareArgs request = .ok args) :
    WritesRate "nuclei" "-rate-limit" (rateArg request) args := by
  refine ⟨[("-jsonl", none), ("-silent", none), ("-no-color", none), ("-duc", none)],
    [("-c", some (toString request.maxConcurrency))] ++
      listSettings "-tags" (Json.get request.options "template_tags") ++
      listSettings "-exclude-tags" (Json.get request.options "exclude_tags") ++
      seedSettings request ++ proxySettings "-proxy" request, ?_, ?_, ?_⟩
  · have hproxy := render_proxySettings "-proxy" request
    rw [proxyArgs] at hproxy
    rw [← Except.ok.inj h, render_listSettings, render_listSettings, render_seedSettings, hproxy]
    simp [render, rateArg]
  · exact among_of_shapes (by decide)
  · simp only [among_append]
    refine ⟨⟨⟨⟨?_, ?_⟩, ?_⟩, ?_⟩, ?_⟩
    · exact among_of_shapes (show ∀ f ∈ [("-c", false)], f ∈ others "nuclei" by decide)
    · exact among_listSettings _ (by decide)
    · exact among_listSettings _ (by decide)
    · exact among_seedSettings _ (by decide)
    · exact among_proxySettings _ (by decide)

theorem katana_writesRate (h : Katana.prepareArgs request = .ok args) :
    WritesRate "katana" "-rate-limit" (rateArg request) args := by
  obtain ⟨depth, -, h⟩ := ExceptList.exists_of_bind_ok h
  refine ⟨[("-jsonl", none), ("-silent", none), ("-no-color", none)],
    [("-concurrency", some (toString request.maxConcurrency)), ("-depth", some (toString depth))] ++
      (if (Json.get request.options "headless").truthy then
        [("-headless", none), ("-no-sandbox", none)] else []) ++
      seedSettings request ++ proxySettings "-proxy" request, ?_, ?_, ?_⟩
  · rw [← Except.ok.inj h, render_seedSettings, render_proxySettings]
    split_ifs <;> simp [render]
  · exact among_of_shapes (by decide)
  · simp only [among_append]
    refine ⟨⟨⟨?_, ?_⟩, ?_⟩, ?_⟩
    · exact among_of_shapes
        (show ∀ f ∈ [("-concurrency", false), ("-depth", false)], f ∈ others "katana" by decide)
    · split_ifs <;> exact among_of_shapes (by decide)
    · exact among_seedSettings _ (by decide)
    · exact among_proxySettings _ (by decide)

theorem httpx_writesRate (h : Httpx.prepareArgs request = .ok args) :
    WritesRate "httpx" "-rate-limit" (rateArg request) args := by
  refine ⟨[("-json", none), ("-silent", none), ("-no-color", none), ("-tech-detect", none),
      ("-title", none), ("-status-code", none)],
    [("-threads", some (toString request.maxConcurrency))] ++ seedSettings request, ?_, ?_, ?_⟩
  · rw [← Except.ok.inj h, render_seedSettings]
    simp [render]
  · exact among_of_shapes (by decide)
  · simp only [among_append]
    refine ⟨?_, ?_⟩
    · exact among_of_shapes (show ∀ f ∈ [("-threads", false)], f ∈ others "httpx" by decide)
    · exact among_seedSettings _ (by decide)

theorem ffuf_writesRate (h : Ffuf.prepareArgs request = .ok args) :
    WritesRate "ffuf" "-rate" (rateArg request) args := by
  refine ⟨[("-u", some (rstrip (request.seedUrls.head request.seedUrls_ne) '/' ++ "/FUZZ")),
      ("-w", some (wordlist request)), ("-of", some "json"), ("-o", some "/out/ffuf.json")],
    [("-t", some (toString request.maxConcurrency)),
      ("-mc", some (join "," (interesting.map toString)))] ++ proxySettings "-x" request,
    ?_, ?_, ?_⟩
  · rw [← Except.ok.inj h, render_proxySettings]
    simp [render]
  · exact among_of_shapes (show ∀ f ∈ [("-u", false), ("-w", false), ("-of", false),
      ("-o", false)], f ∈ others "ffuf" by decide)
  · simp only [among_append]
    refine ⟨?_, ?_⟩
    · exact among_of_shapes
        (show ∀ f ∈ [("-t", false), ("-mc", false)], f ∈ others "ffuf" by decide)
    · exact among_proxySettings _ (by decide)

theorem feroxbuster_writesRate (h : Feroxbuster.prepareArgs request = .ok args) :
    WritesRate "feroxbuster" "--rate-limit" (rateArg request) args := by
  refine ⟨[("--silent", none), ("--json", none), ("--wordlist", some (wordlist request))],
    [("--threads", some (toString request.maxConcurrency)),
      ("--url", some (request.seedUrls.head request.seedUrls_ne))] ++
      proxySettings "--proxy" request, ?_, ?_, ?_⟩
  · rw [← Except.ok.inj h, render_proxySettings]
    simp [render]
  · exact among_of_shapes (show ∀ f ∈ [("--silent", true), ("--json", true),
      ("--wordlist", false)], f ∈ others "feroxbuster" by decide)
  · simp only [among_append]
    refine ⟨?_, ?_⟩
    · exact among_of_shapes
        (show ∀ f ∈ [("--threads", false), ("--url", false)], f ∈ others "feroxbuster" by decide)
    · exact among_proxySettings _ (by decide)

/-! ## The rate of the target at the tools -/

/-- Whatever is requested, each of the five tools reads the whole part of the rate. -/
theorem valuesOf_prepareTarget {a : ContainerAdapter} {spec : ContainerSpec}
    (ha : (a, flag) ∈ rateFlags) (hspec : a.prepareTarget request = .ok spec) :
    valuesOf a.engine.id flag spec.args = [some (rateArg request)] := by
  obtain ⟨args, hargs, hbase⟩ := ExceptList.exists_of_bind_ok hspec
  obtain rfl : a.engine.baseSpec args = spec := Except.ok.inj hbase
  have hmem : (a.engine.id, flag) ∈ rateFlags.map fun e ↦ (e.1.engine.id, e.2) :=
    List.mem_map_of_mem (f := fun e : ContainerAdapter × String ↦ (e.1.engine.id, e.2)) ha
  rw [rateFlags_ids] at hmem
  apply valuesOf_of_writesRate (others_spec _ hmem)
  simp only [rateFlags, List.mem_cons, List.not_mem_nil, or_false, Prod.mk.injEq] at ha
  rcases ha with ⟨rfl, rfl⟩ | ⟨rfl, rfl⟩ | ⟨rfl, rfl⟩ | ⟨rfl, rfl⟩ | ⟨rfl, rfl⟩
  · exact nuclei_writesRate hargs
  · exact katana_writesRate hargs
  · exact httpx_writesRate hargs
  · exact ffuf_writesRate hargs
  · exact feroxbuster_writesRate hargs

section Limit

variable {limits : RateLimits} {a : ContainerAdapter} {spec : ContainerSpec}

theorem rateHonoured_iff_keepsTo
    (hrate : request.maxRequestsPerSecond = limits.maxRequestsPerSecond)
    (ha : (a, flag) ∈ rateFlags) (hspec : a.prepareTarget request = .ok spec) :
    RateHonoured limits.maxRequestsPerSecond a.engine.id flag spec.args ↔
      KeepsTo limits.maxRequestsPerSecond (toString limits.maxRequestsPerSecond.floor) := by
  have hvalues := valuesOf_prepareTarget ha hspec
  rw [rateArg, hrate] at hvalues
  constructor
  · rintro ⟨value, hvalue, hkeeps⟩
    rw [hvalues] at hvalue
    obtain rfl : toString limits.maxRequestsPerSecond.floor = value := by simpa using hvalue
    exact hkeeps
  · exact fun hkeeps ↦ ⟨_, hvalues, hkeeps⟩

/-- When a request carries the limit of a target, the tools are told a rate that keeps
to it exactly when it is at least one request per second. -/
theorem rateHonoured_iff (hrate : request.maxRequestsPerSecond = limits.maxRequestsPerSecond)
    (ha : (a, flag) ∈ rateFlags) (hspec : a.prepareTarget request = .ok spec) :
    RateHonoured limits.maxRequestsPerSecond a.engine.id flag spec.args ↔
      1 ≤ limits.maxRequestsPerSecond :=
  (rateHonoured_iff_keepsTo hrate ha hspec).trans (keepsTo_floor_iff limits.rate_ok.1)

end Limit

/-- The requests of the orchestrator carry the limit. -/
theorem rate_of_request {scan : Scan} {target : Target} {md : EngineMetadata} {task : PlannedTask}
    {seedUrls : List String} {runId : String}
    (h : EngineRunRequest.modelValidate runId (requestOf scan target md task seedUrls) =
      .ok request) : request.maxRequestsPerSecond = target.rateLimits.maxRequestsPerSecond := by
  unfold EngineRunRequest.modelValidate at h
  split_ifs at h
  cases h
  rfl

theorem nuclei_mem_rateFlags : (Nuclei.adapter, "-rate-limit") ∈ rateFlags := List.mem_cons_self

theorem rateHonoured_iff_nuclei : ∃ request spec,
    EngineRunRequest.modelValidate "r" nucleiRequest = .ok request ∧
      Nuclei.adapter.prepareTarget request = .ok spec ∧
        (RateHonoured demoTarget.rateLimits.maxRequestsPerSecond "nuclei" "-rate-limit" spec.args ↔
          1 ≤ demoTarget.rateLimits.maxRequestsPerSecond) := by
  obtain ⟨request, spec, hrequest, hspec⟩ := exists_nuclei_spec
  exact ⟨request, spec, hrequest, hspec,
    rateHonoured_iff (rate_of_request hrequest) nuclei_mem_rateFlags hspec⟩

/-! ## One request in two seconds -/

theorem slowRate_ok : (0 : ℚ) < 1 / 2 ∧ (1 / 2 : ℚ) ≤ 1000 := by norm_num

def slowTarget : Target :=
  { demoTarget with rateLimits := ⟨1 / 2, 4, slowRate_ok, demoConcurrency_ok⟩ }

def slowRequest : RawEngineRunRequest :=
  requestOf demoScan slowTarget (Nuclei.engine.metadata "3.2.0" true) demoTask
    ["https://app.example/"]

theorem exists_slow_spec : ∃ request spec,
    EngineRunRequest.modelValidate "r" slowRequest = .ok request ∧
      Nuclei.adapter.prepareTarget request = .ok spec := by
  have hok : isIdentifier slowRequest.engineId = true ∧ slowRequest.capabilities ≠ [] ∧
      slowRequest.seedUrls ≠ [] ∧ 0 < slowRequest.maxRequestsPerSecond ∧
        1 ≤ slowRequest.maxConcurrency :=
    ⟨Nuclei.id_ok, List.cons_ne_nil _ _, List.cons_ne_nil _ _, slowRate_ok.1, demoConcurrency_ok.1⟩
  exact ⟨_, _, dif_pos hok, rfl⟩

/-- The tool is told 0, which it takes for no limit. -/
theorem not_rateHonoured_slowTarget : ∃ request spec,
    EngineRunRequest.modelValidate "r" slowRequest = .ok request ∧
      Nuclei.adapter.prepareTarget request = .ok spec ∧
        ¬ RateHonoured slowTarget.rateLimits.maxRequestsPerSecond "nuclei" "-rate-limit"
          spec.args := by
  obtain ⟨request, spec, hrequest, hspec⟩ := exists_slow_spec
  refine ⟨request, spec, hrequest, hspec, fun h ↦ ?_⟩
  have hkeeps :=
    (rateHonoured_iff_keepsTo (rate_of_request hrequest) nuclei_mem_rateFlags hspec).mp h
  have hone : (1 : ℚ) ≤ 1 / 2 := (keepsTo_floor_iff slowRate_ok.1).mp hkeeps
  norm_num at hone

end Vantage.Scan
