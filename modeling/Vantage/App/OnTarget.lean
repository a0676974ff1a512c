import Vantage.Adapters.Native.NamedUrls
import Vantage.App.Contacts
import Vantage.Scan.Origins
import Vantage.Scan.Seeds

/-!
# The hosts of findings

Native engines report on the answers for their seeds and on the ends of their
handshakes, whose hosts are those of the seeds. The crawler also reports on
every URL that a page or a script names, and looks at no host when it does.
-/

namespace Vantage

open Text Adapters Adapters.Native Engines Scan Scope Findings Persistence

/-! ## Hosts -/

/-- The host is that of a base URL of the target, in the form that locations give it. -/
def OnTarget (target : Target) (host : String) : Prop :=
  ∃ base ∈ target.baseUrls, ∃ h, Crawler.hostOf base = some h ∧ locationHost h = host

/-- The URL has a host, which is on the target. -/
def OfTarget (target : Target) (url : String) : Prop :=
  ∃ h, Crawler.hostOf url = some h ∧ OnTarget target (locationHost h)

/-- If the URL has a host, it is on the target. -/
def HomeUrl (target : Target) (url : String) : Prop :=
  ∀ h, Crawler.hostOf url = some h → OnTarget target (locationHost h)

variable {w : World} {site : Site} {target : Target} {url host : String} {loc : Location}
  {d : Detection} {res : FetchResult}

theorem homeUrl_of_mem (h : url ∈ target.baseUrls) : HomeUrl target url := fun host hhost ↦
  ⟨url, h, host, hhost, rfl⟩

theorem host_of_locationOf (h : locationOf url = .ok loc) :
    loc.host = locationHost ((Crawler.hostOf url).getD "") := by
  unfold locationOf at h
  unfold Crawler.hostOf
  cases hsplit : Url.urlsplit url with
  | none =>
      rw [hsplit] at h
      exact absurd h (by simp)
  | some parts =>
      rw [hsplit] at h
      dsimp only at h
      cases hport : parts.port with
      | none =>
          rw [hport] at h
          exact absurd h (by simp)
      | some explicit =>
          rw [hport] at h
          obtain rfl := Except.ok.inj h
          exact locationHost_lower _

theorem hostOf_of_host_ne (h : locationOf url = .ok loc) (hne : loc.host ≠ "") :
    ∃ host, Crawler.hostOf url = some host ∧ loc.host = locationHost host := by
  rw [host_of_locationOf h] at hne ⊢
  cases hhost : Crawler.hostOf url with
  | none =>
      rw [hhost] at hne
      exact absurd rfl hne
  | some host => exact ⟨host, rfl, rfl⟩

theorem host_of_targetOf {t : String × ℤ} (h : Tls.targetOf url = .ok (some t)) :
    ∃ host, Crawler.hostOf url = some host ∧ t.1 = lower host := by
  unfold Tls.targetOf at h
  unfold Crawler.hostOf
  cases hsplit : Url.urlsplit url with
  | none =>
      rw [hsplit] at h
      exact absurd h (by simp)
  | some parts =>
      rw [hsplit] at h
      dsimp only at h
      rw [orElse_empty] at h
      by_cases hscheme : lower parts.scheme ∉ ["https", "wss"]
      · rw [if_pos hscheme] at h
        exact absurd h (by simp)
      · rw [if_neg hscheme] at h
        cases hhost : parts.hostname with
        | none =>
            rw [hhost, Option.getD_none, if_pos rfl] at h
            exact absurd h (by simp)
        | some host =>
            rw [hhost, Option.getD_some] at h
            refine ⟨host, hhost, ?_⟩
            by_cases hempty : host = ""
            · rw [if_pos hempty] at h
              exact absurd h (by simp)
            · rw [if_neg hempty] at h
              split at h
              · exact absurd h (by simp)
              · exact (congrArg Prod.fst (Option.some.inj (Except.ok.inj h))).symm
              · exact (congrArg Prod.fst (Option.some.inj (Except.ok.inj h))).symm

/-- Only a URL with a host is fetched. -/
theorem exists_hostOf_of_allows {scope : ScopeEngine} {re : RegexEngine String}
    {method : Option String} (h : scope.Allows re url method) :
    ∃ host, Crawler.hostOf url = some host := by
  obtain ⟨-, u, hparse, -⟩ := allows_iff.mp h
  unfold parse at hparse
  unfold Crawler.hostOf
  cases hsplit : Url.urlsplit url with
  | none =>
      rw [hsplit] at hparse
      exact absurd hparse (by simp)
  | some parts =>
      cases hhost : parts.hostname with
      | none =>
          rw [hsplit] at hparse
          simp [hhost] at hparse
      | some host => exact ⟨host, hhost⟩

/-! ## Detections -/

/-- What is detected is at the host, and the evidence holds no URL. -/
structure PlainAt (host : String) (d : Detection) : Prop where
  host : d.location.host = host
  url : Json.lookup d.evidence.data "url" = none

theorem plainAt_of_mem_headers (h : d ∈ Headers.findings loc res) : PlainAt loc.host d := by
  rcases Headers.mem_findings.mp h with h | h | h | h | h
  · obtain ⟨spec, -, -, rfl⟩ := Headers.mem_headerFindings.mp h
    exact ⟨rfl, rfl⟩
  · dsimp only [Headers.cookieFindings] at h
    split at h
    · exact absurd h List.not_mem_nil
    · rw [List.mem_singleton.mp h]
      exact ⟨rfl, rfl⟩
  · dsimp only [Headers.corsFindings] at h
    split at h
    · rw [List.mem_singleton.mp h]
      exact ⟨rfl, rfl⟩
    · exact absurd h List.not_mem_nil
  · obtain ⟨header, -, -, -, rfl⟩ := Headers.mem_bannerFindings.mp h
    exact ⟨rfl, rfl⟩
  · obtain ⟨⟨name, pattern⟩, -, hsecret⟩ := List.mem_filterMap.mp h
    obtain ⟨o, -, rfl⟩ := Option.map_eq_some_iff.mp hsecret
    exact ⟨rfl, rfl⟩

theorem plainAt_of_mem_fingerprint (h : d ∈ Fingerprint.findings loc res) :
    PlainAt loc.host d := by
  obtain ⟨sig, -, hdetected⟩ := List.mem_filterMap.mp h
  obtain ⟨value, -, rfl⟩ := Option.map_eq_some_iff.mp hdetected
  exact ⟨rfl, rfl⟩

theorem plainAt_of_detects {info : TlsInfo} (h : Tls.Detects info d) :
    PlainAt (locationHost info.host) d := by
  obtain ⟨_, _, _, _, _, _, _, rfl⟩ := h
  exact ⟨rfl, rfl⟩

/-- What is detected is on the target, and so is the URL that the evidence may hold. -/
structure Home (target : Target) (d : Detection) : Prop where
  host : OnTarget target d.location.host
  url : ∀ url, Json.lookup d.evidence.data "url" = some (.str url) → HomeUrl target url

theorem PlainAt.home (h : PlainAt host d) (hhost : OnTarget target host) : Home target d where
  host := by
    rw [h.host]
    exact hhost
  url url hurl := by
    rw [h.url] at hurl
    exact absurd hurl (by simp)

theorem evidenceUrls_home {observations : List Observation}
    (h : AllReport (Home target) observations) :
    ∀ url ∈ evidenceUrls observations, HomeUrl target url := by
  intro url hurl
  obtain ⟨o, ho, hurl⟩ := List.mem_flatMap.mp hurl
  obtain ⟨d, hd, hreports⟩ := h o ho
  obtain ⟨ev, hev, hevidence⟩ := hreports.evidence
  have hdata : ev.data = d.evidence.data := by
    unfold Evidence.modelValidate at hev
    split_ifs at hev
    exact congrArg Evidence.data (Except.ok.inj hev).symm
  obtain ⟨ev', hev', hurl⟩ := List.mem_filterMap.mp (hevidence ▸ hurl)
  rw [List.mem_singleton.mp hev', hdata] at hurl
  split at hurl
  · rename_i hlookup
    exact hd.url url (Option.some.inj hurl ▸ hlookup)
  · exact absurd hurl (by simp)

/-! ## Engines -/

/-- An answer to a request to the target comes from a URL on the target, as no redirect is
followed, and an inspection is one of the host that it is asked for. -/
structure Direct (w : World) (site : Site) (target : Target) : Prop where
  answer : ∀ url r, OfTarget target url → site url = .response r → OfTarget target r.url
  host : ∀ s host port, (w.inspect s host port).host = host

/-- The pages and scripts that a crawl for the request reads name only URLs on the target or
without a host. A crawl that raises reports nothing. -/
def NamesHome (w : World) (site : Site) (target : Target) (request : EngineRunRequest) : Prop :=
  ∀ client, defaultClientFactory request = .ok client →
    Crawler.CrawlTame w client site request →
    ∀ page res, Crawler.CrawlReads w client site request page res →
    ∀ url ∈ Crawler.namesOf w client site page res, ∀ loc, locationOf url = .ok loc →
      loc.host = "" ∨ OnTarget target loc.host

variable {client : ScopedHttpClient} {request : EngineRunRequest}

/-- Nothing is asked of the events. -/
theorem permits_all : Permits w client fun _ ↦ True where
  clock _ := True.intro
  newId _ := True.intro
  request _ _ _ _ := True.intro

theorem ofTarget_read (hdirect : Direct w site target) (hurl : OfTarget target url) :
    OfTarget target (client.read w url (site url)).url := by
  unfold ScopedHttpClient.read
  cases hsite : site url with
  | failure message => exact hurl
  | response r =>
      dsimp only
      cases w.decode (orElse r.encoding "utf-8") (r.content.take client.maxBody) with
      | error message => exact hurl
      | ok text => exact hdirect.answer url r hurl hsite

/-- What is read for a URL on the target is on the target. -/
theorem onTarget_of_answered {C : Event → Prop} (hdirect : Direct w site target)
    (hurl : HomeUrl target url) (h : Answered (serving w site) client C "GET" url res)
    (hok : res.ok = true) (hloc : locationOf res.url = .ok loc) : OnTarget target loc.host := by
  obtain ⟨s, hallows, -, hres⟩ := h hok
  have hres : res = client.read w url (site url) := hres
  obtain ⟨host, hhost⟩ := exists_hostOf_of_allows hallows
  obtain ⟨h', hread, hhome⟩ : OfTarget target res.url := by
    rw [hres]
    exact ofTarget_read hdirect ⟨host, hhost, hurl host hhost⟩
  rwa [host_of_locationOf hloc, hread]

theorem home_headers (hdirect : Direct w site target)
    (hseeds : ∀ u ∈ request.seedUrls, HomeUrl target u) :
    Effect.Returns (Headers.adapter.analyze (serving w site) request client)
      (AllReport (Home target)) := by
  refine (logs_headers (C := fun _ ↦ True) permits_all ?_).returns fun _ ↦ True.intro
  intro url hurl res loc hanswered hok hloc d hd
  exact (plainAt_of_mem_headers hd).home
    (onTarget_of_answered hdirect (hseeds url hurl) hanswered hok hloc)

theorem home_fingerprint (hdirect : Direct w site target)
    (hseeds : ∀ u ∈ request.seedUrls, HomeUrl target u) :
    Effect.Returns (Fingerprint.adapter.analyze (serving w site) request client)
      (AllReport (Home target)) := by
  refine (logs_fingerprint (C := fun _ ↦ True) permits_all ?_).returns fun _ ↦ True.intro
  intro url hurl res loc hanswered hok hloc d hd
  exact (plainAt_of_mem_fingerprint hd).home
    (onTarget_of_answered hdirect (hseeds url hurl) hanswered hok hloc)

theorem home_tls (hdirect : Direct w site target)
    (hseeds : ∀ u ∈ request.seedUrls, HomeUrl target u) :
    Effect.Returns (Tls.adapter.analyze (serving w site) request client)
      (AllReport (Home target)) := by
  refine (Tls.logs_analyze (C := fun _ ↦ True) (P := fun _ ↦ True) ⟨by simp, by simp⟩ (by simp)
    ?_).returns fun _ ↦ True.intro
  intro targets htargets t ht s _ d hd
  obtain ⟨url, hurl, htarget⟩ := (mem_targetsOf htargets t).mp ht
  obtain ⟨host, hhost, hname⟩ := host_of_targetOf htarget
  have honTarget := hseeds url hurl host hhost
  rw [← locationHost_lower, ← hname, ← hdirect.host s t.1 t.2] at honTarget
  exact (plainAt_of_detects hd).home honTarget

/-- The hosts that a crawl reports are those of the URLs that are named. -/
theorem home_crawler (hclient : defaultClientFactory request = .ok client)
    (hnames : NamesHome w site target request) :
    Effect.Returns (Crawler.adapter.analyze (serving w site) request client)
      (AllReport (Home target)) := by
  intro s obs s' hrun
  have htame := (Crawler.returnsIff_analyze s).mp ⟨obs, s', hrun⟩
  have hreports := (Crawler.logs_analyze (C := fun _ ↦ True) (P := fun _ ↦ True)
    (K := fun d ↦ ∃ url how loc, locationOf url = .ok loc ∧ loc.host ≠ "" ∧
      d = Crawler.endpoint loc url how) permits_all yields_all
    fun url how loc _ hloc hne ↦ ⟨url, how, loc, hloc, hne, rfl⟩).returns (fun _ ↦ True.intro)
    s obs s' hrun
  intro o ho
  obtain ⟨_, ⟨url, how, loc, hloc, hne, rfl⟩, hreport⟩ := hreports o ho
  have hhost : o.location.host = loc.host := congrArg Location.host hreport.location
  obtain ⟨page, res, hreads, url', hnamed, loc', hloc', hsame, -⟩ :=
    (Crawler.reported_hosts_iff hrun loc.host).mp ⟨o, ho, hhost⟩
  have honTarget : OnTarget target loc.host := by
    rw [← hsame] at hne ⊢
    exact (hnames client hclient htame page res hreads url' hnamed loc' hloc').resolve_left hne
  refine ⟨_, ⟨honTarget, ?_⟩, hreport⟩
  rintro _ ⟨⟩ h hh
  obtain ⟨h', hh', hlocHost⟩ := hostOf_of_host_ne hloc hne
  obtain rfl := Option.some.inj (hh.symm.trans hh')
  rwa [← hlocHost]

/-- An engine that is pointed at the target reports on the target. -/
theorem home_lifecycle (hdirect : Direct w site target) {a : NativeAdapter}
    (ha : a ∈ nativeAdapters) (hseeds : ∀ u ∈ request.seedUrls, HomeUrl target u)
    (hnames : a.engine.id = Crawler.engine.id → NamesHome w site target request) :
    Effect.Returns ((a.toEngineAdapter (serving w site)).lifecycle request)
      (AllReport (Home target)) := by
  apply returns_lifecycle
  intro client hclient
  simp only [nativeAdapters, List.mem_cons, List.not_mem_nil, or_false] at ha
  rcases ha with rfl | rfl | rfl | rfl | rfl
  · exact home_headers hdirect hseeds
  · exact home_fingerprint hdirect hseeds
  · exact home_tls hdirect hseeds
  · exact home_crawler hclient (hnames rfl)
  · exact Effect.Returns.pure (by simp [AllReport])

/-! ## Runs -/

/-- All adapters that are bound are those of the native engines. -/
def NativeOnly (w : World) (o : Orchestrator History) : Prop :=
  ∀ id x, o.registry.adapterFor id = some x →
    ∃ a ∈ nativeAdapters, a.engine.id = id ∧ x = a.toEngineAdapter w

/-- The request is one for the seeds under the rules of the target. -/
structure Asks (target : Target) (seeds : List String) (request : EngineRunRequest) : Prop where
  seedUrls : request.seedUrls = seeds
  scopeRules : request.scopeRules = target.scopeRules.map ScopeRule.dump
  options : request.options = []

/-- The crawls of the run name only URLs on the target. -/
def CrawlsHome (w : World) (site : Site) (target : Target) (runs : List TaskRun) : Prop :=
  ∀ r ∈ runs, r.task.engineId = Crawler.engine.id →
    ∀ request, Asks target r.seedUrls request → NamesHome w site target request

variable {o : Orchestrator History} {scan : Scan} {p p' : Platform History} {report : ScanReport}
  {runs : List TaskRun}

theorem asks_of_modelValidate {md : EngineMetadata} {task : PlannedTask} {seeds : List String}
    {runId : String}
    (h : EngineRunRequest.modelValidate runId (requestOf scan target md task seeds) = .ok request) :
    Asks target seeds request := by
  unfold EngineRunRequest.modelValidate at h
  split_ifs at h
  obtain rfl := Except.ok.inj h
  exact ⟨rfl, rfl, rfl⟩

/-- A task with seeds on the target leads to observations on the target. -/
theorem Scan.Loops.home_of_seeds {scope : ScopeEngine} {tasks : List (StageKind × PlannedTask)}
    {progress progress' : Progress} {s s' : History} (hdirect : Direct w site target)
    (hnative : NativeOnly (serving w site) o) (hnames : CrawlsHome w site target runs)
    (h : Loops o scan target scope tasks progress s runs progress' s') :
    ∀ r ∈ runs, (∀ u ∈ r.seedUrls, HomeUrl target u) →
      AllReport (Home target) r.outcome.observations := by
  intro r hr hseeds
  by_cases hbound : r.outcome = .unbound
  · rw [hbound]
    exact List.forall_mem_nil _
  · obtain ⟨x, md, runId, request, s₁, s₂, hadapter, hrequest, hends⟩ := h.requests r hr hbound
    have hasks := asks_of_modelValidate hrequest
    obtain ⟨a, ha, hid, rfl⟩ := hnative _ x hadapter
    have hlifecycle := home_lifecycle hdirect ha (hasks.seedUrls ▸ hseeds) fun hcrawler ↦
      hnames r hr (hid.symm.trans hcrawler) request hasks
    generalize r.outcome = outcome at hends ⊢
    cases hends with
    | unavailable => exact List.forall_mem_nil _
    | unhealthy => exact List.forall_mem_nil _
    | raised => exact List.forall_mem_nil _
    | completed _ _ hrun => exact hlifecycle _ _ _ hrun

/-- When the crawls of a run name only URLs on the target, everything that native engines find is
on the target. -/
theorem reportsOnTarget (hdirect : Direct w site target) (hnative : NativeOnly (serving w site) o)
    (hplanner : PlansItself o) (hrun : o.run scan target p = (.ok report, p'))
    (hnames : ∀ runs, Executes o scan target p runs → CrawlsHome w site target runs) :
    ∀ f ∈ report.findings, OnTarget target f.host := by
  obtain ⟨runs, hruns⟩ := exists_executes hrun
  have hhome : ∀ r ∈ runs, ∀ obs ∈ r.outcome.observations, ∃ d, Home target d ∧ Reports d obs := by
    have hnamesRuns := hnames runs hruns
    cases hruns with
    | refused => exact List.forall_mem_nil _
    | conducted hauthorized hplan hloops =>
        refine hloops.forall_observations (fun entry hentry u hu ↦ ?_) (List.forall_mem_nil _)
          (hloops.home_of_seeds hdirect hnative hnamesRuns) fun _ ↦ evidenceUrls_home
        rw [seedUrls_of_planStage hplanner hplan hentry] at hu
        exact homeUrl_of_mem hu
  intro f hf
  obtain ⟨r, hr, obs, hobs, hhost⟩ := host_of_run hrun hruns f hf
  obtain ⟨d, hd, hreports⟩ := hhome r hr obs hobs
  rw [hhost, hreports.location]
  exact hd.host

/-- No run of native engines on an authorized target with default rules reports on another host. -/
def StaysOnTarget : Prop :=
  ∀ (w : World) (site : Site) (o : Orchestrator History) (scan : Scan) (target : Target)
    (p p' : Platform History) (report : ScanReport),
    Direct w site target → NativeOnly (serving w site) o → PlansItself o →
    target.isAuthorized (o.env.clock p.world).1 = true →
    defaultScopeRulesFor target.baseUrls = .ok target.scopeRules →
    o.run scan target p = (.ok report, p') → ∀ f ∈ report.findings, OnTarget target f.host

/-! ## A crawler on its own -/

theorem appSchemes_ok : ∀ s ∈ ["https"], s ∈ supportedSchemes := by simp [supportedSchemes]

/-- The target with its default rule. -/
def appTarget : Target :=
  { demoTarget with
    scopeRules := [{ demoHost with schemes := ["https"], schemes_ok := appSchemes_ok }] }

theorem appTarget_rules : defaultScopeRulesFor appTarget.baseUrls = .ok appTarget.scopeRules := rfl

/-- The digests of the two correlation keys. -/
def endpointSha256 (m : List UInt8) : String :=
  if m = Utf8.encode "information_disclosure|other.example|443|/|GET|*".toList then
    "68dec736d69e59e2be172df51820d56f2cd41063b270864be35e8ba73b112621"
  else if m = Utf8.encode "information_disclosure|app.example|443|/|GET|*".toList then
    "9ee9be3edbe70fd4a8f0f6a5bdbd50312ac66ffea35ffd33eebefd7c171ae9ff"
  else ""

def crawlerOrchestrator (w : World) (a : NativeAdapter) : Orchestrator History where
  env :=
    { clock := fun s ↦ (0, s)
      newIds := fun s ↦ (fun _ ↦ "f", s)
      regex := w.regex
      loads := w.loads
      digests := { demoDigests with sha256 := endpointSha256 }
      evidenceVariable := none }
  registry :=
    { policy := demoPolicy
      engines := Dict.empty.set a.engine.id
        { manifest := demoManifest
          lock := { version := a.engine.version, license := firstPartyLicense }
          metadata := a.engine.metadata
          adapter := some (a.toEngineAdapter w)
          problems := []
          notes := [] } }
  risk _ := 25

theorem nativeOnly_crawlerOrchestrator (w : World) :
    NativeOnly w (crawlerOrchestrator w Crawler.adapter) := by
  intro id x hx
  by_cases hid : id = Crawler.adapter.engine.id
  · subst hid
    have hbound : (crawlerOrchestrator w Crawler.adapter).registry.adapterFor
        Crawler.adapter.engine.id = some (Crawler.adapter.toEngineAdapter w) := rfl
    exact ⟨Crawler.adapter, by simp [nativeAdapters], rfl,
      Option.some.inj (hx.symm.trans hbound)⟩
  · have hnone : (crawlerOrchestrator w Crawler.adapter).registry.adapterFor id = none := by
      unfold EngineRegistry.adapterFor
      have hget : (crawlerOrchestrator w Crawler.adapter).registry.engines.get? id = none :=
        (Dict.get?_set_of_ne _ hid _).trans (Dict.get?_empty id)
      rw [hget]
    exact absurd (hnone.symm.trans hx) (by simp)

def crawlerPlatform : Platform History := ⟨demoShared.platform.db, []⟩

/-- The hosts of the findings of a run of the crawler on the site. -/
def reportedHosts (site : Site) (a : NativeAdapter) : Except PyError (List String) :=
  ((crawlerOrchestrator (serving latinWorld site) a).run demoScan appTarget
    crawlerPlatform).1.map fun report ↦ report.findings.map UnifiedFinding.host

theorem exists_report {site : Site} {hosts : List String}
    (h : reportedHosts site Crawler.roundsAdapter = .ok hosts) :
    ∃ report p', (crawlerOrchestrator (serving latinWorld site) Crawler.adapter).run demoScan
      appTarget crawlerPlatform = (.ok report, p') ∧
        report.findings.map UnifiedFinding.host = hosts := by
  rw [← Crawler.adapter_eq_roundsAdapter] at h
  unfold reportedHosts at h
  rcases hrun : (crawlerOrchestrator (serving latinWorld site) Crawler.adapter).run demoScan
    appTarget crawlerPlatform with ⟨result, p'⟩
  rw [hrun] at h
  cases result with
  | error e => exact absurd h (by simp [Except.map])
  | ok report => exact ⟨report, p', rfl, Except.ok.inj h⟩

theorem onTarget_appTarget : OnTarget appTarget host ↔ host = "app.example" := by
  have hbase : Crawler.hostOf "https://app.example/" = some "app.example" := by decide +kernel
  have hname : locationHost "app.example" = "app.example" := by decide +kernel
  constructor
  · rintro ⟨base, hmem, h, hh, rfl⟩
    rw [List.mem_singleton.mp hmem, hbase] at hh
    rw [← Option.some.inj hh, hname]
  · rintro rfl
    exact ⟨_, List.mem_singleton.mpr rfl, _, hbase, hname⟩

/-- A site that always answers from the base URL. -/
theorem direct_of_answers
    (hsite : ∀ url, ∃ r, site url = .response r ∧ r.url = "https://app.example/") :
    Direct latinWorld site appTarget where
  answer url r _ hresponse := by
    obtain ⟨r', hr', hurl⟩ := hsite url
    obtain rfl := HttpOutcome.response.inj (hr'.symm.trans hresponse)
    refine ⟨"app.example", ?_, onTarget_appTarget.mpr (by decide +kernel)⟩
    rw [hurl]
    decide +kernel
  host _ _ _ := rfl

/-! ## A link to another host -/

def foreignSite : Site := htmlSite "<a href=\"https://other.example/\">"

theorem reportedHosts_foreignSite :
    reportedHosts foreignSite Crawler.roundsAdapter = .ok ["other.example"] := by
  decide +kernel

theorem not_staysOnTarget : ¬ StaysOnTarget := by
  intro h
  obtain ⟨report, p', hrun, hhosts⟩ := exists_report reportedHosts_foreignSite
  obtain ⟨f, hf, hhost⟩ : ∃ f ∈ report.findings, f.host = "other.example" := by
    have hmem : "other.example" ∈ report.findings.map UnifiedFinding.host := by
      rw [hhosts]
      exact List.mem_singleton.mpr rfl
    exact List.mem_map.mp hmem
  have honTarget := h latinWorld foreignSite _ demoScan appTarget crawlerPlatform p' report
    (direct_of_answers fun _ ↦ ⟨_, rfl, rfl⟩) (nativeOnly_crawlerOrchestrator _) rfl rfl
    appTarget_rules hrun f hf
  rw [hhost, onTarget_appTarget] at honTarget
  exact absurd honTarget (by decide)

/-! ## A script that names its own host -/

def ownScript : String := "\"https://app.example/\""

theorem scriptHeaders_nodup : ([("content-type", "text/javascript")].map Prod.fst).Nodup := by
  decide

def scriptSite : Site := fun _ ↦ .response
  { url := "https://app.example/"
    statusCode := 200
    headers := [("content-type", "text/javascript")]
    content := ownScript.toList.map fun c ↦ c.toNat.toUInt8
    encoding := none
    headers_nodup := scriptHeaders_nodup }

def scriptResult : FetchResult where
  url := "https://app.example/"
  status := 200
  headers := [("content-type", "text/javascript")]
  body := ownScript

theorem read_scriptSite (hclient : defaultClientFactory request = .ok client) (page : String) :
    client.read latinWorld page (scriptSite page) = scriptResult := by
  obtain ⟨scope, -, hclient⟩ := ExceptList.exists_of_bind_ok hclient
  obtain rfl := Except.ok.inj hclient
  have hbody : String.ofList (((ownScript.toList.map fun c ↦ c.toNat.toUInt8).take
      defaultMaxBody).map fun b ↦ Char.ofNat b.toNat) = ownScript := by
    decide +kernel
  exact congrArg (fun body ↦ { scriptResult with body := body }) hbody

theorem namesOf_scriptResult (page : String) :
    Crawler.namesOf latinWorld client scriptSite page scriptResult = ["https://app.example/"] := by
  have hhtml : Crawler.isHtml scriptResult = false := by decide +kernel
  have hscript : Crawler.isScript page scriptResult = true := by
    have hcontent : contains (Crawler.contentType scriptResult) "javascript" = true := by
      decide +kernel
    have hok : scriptResult.ok = true := rfl
    rw [Crawler.isScript, Crawler.looksLikeJs, hok, hcontent, Bool.or_true, Bool.true_or,
      Bool.true_and]
  have hpaths : Crawler.pathsOf ownScript = [] := by decide +kernel
  have hurls : sortedSet ((Crawler.groupsOf Crawler.jsUrlPattern ownScript).map
      Crawler.stripFragment ++ []) = ["https://app.example/"] := by
    decide +kernel
  rw [Crawler.namesOf, hhtml, hscript, if_neg Bool.false_ne_true, if_pos rfl, Crawler.endpointsOf]
  change sortedSet (_ ++ (Crawler.joined page (Crawler.pathsOf ownScript)).map _) = _
  rw [hpaths]
  exact hurls

/-- Whatever is crawled on the site, it names its own host. -/
theorem namesHome_scriptSite (request : EngineRunRequest) :
    NamesHome latinWorld scriptSite appTarget request := by
  rintro client hclient - page res ⟨maxPages, maxDepth, -, -, hreads⟩ url hnamed loc hloc
  have hfetch := hreads.fetched
  unfold fetchOf at hfetch
  split at hfetch
  · exact absurd hfetch (by simp)
  · obtain rfl := Except.ok.inj hfetch
    split_ifs at hnamed
    · rw [read_scriptSite hclient, namesOf_scriptResult, List.mem_singleton] at hnamed
      have hhost : locationHost ((Crawler.hostOf "https://app.example/").getD "") =
          "app.example" := by
        decide +kernel
      rw [host_of_locationOf hloc, hnamed, hhost]
      exact Or.inr (onTarget_appTarget.mpr rfl)
    · simp [Crawler.namesOf, Crawler.isHtml, Crawler.isScript, FetchResult.ok] at hnamed

theorem reportedHosts_scriptSite :
    reportedHosts scriptSite Crawler.roundsAdapter = .ok ["app.example"] := by
  decide +kernel

theorem reportsOnTarget_scriptSite : ∃ report p',
    (crawlerOrchestrator (serving latinWorld scriptSite) Crawler.adapter).run demoScan appTarget
      crawlerPlatform = (.ok report, p') ∧
    report.findings.map UnifiedFinding.host = ["app.example"] ∧
    ∀ f ∈ report.findings, OnTarget appTarget f.host := by
  obtain ⟨report, p', hrun, hhosts⟩ := exists_report reportedHosts_scriptSite
  refine ⟨report, p', hrun, hhosts, ?_⟩
  exact reportsOnTarget (direct_of_answers fun _ ↦ ⟨_, rfl, rfl⟩)
    (nativeOnly_crawlerOrchestrator _) rfl hrun
    fun _ _ _ _ _ request _ ↦ namesHome_scriptSite request

end Vantage
