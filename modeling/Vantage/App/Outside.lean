import Vantage.App.Contacts
import Vantage.App.OnTarget
import Vantage.Scan.PolicyReach
import Vantage.Scan.Prober
import Vantage.Scan.Worlds
import Vantage.Scope.DefaultRules

/-!
# What a scan does to the world

Everything that a scan of the built application does outside its database can
be explained: requests under the rules of the target, handshakes with the
ends of seeds, and containers that are locked down.
-/

namespace Vantage

open Text Adapters Adapters.Native Adapters.Oss CommandLine Engines Findings Governance Persistence
  Scan Scope

variable {w : World} {d : DockerSandboxRunner} {o : Orchestrator History} {scan : Scan}
  {target : Target} {p : Platform History} {request : EngineRunRequest}

/-! ## The orchestrator of the application -/

/-- The clock and fresh identifiers are read and nothing else is done. -/
def Reads : Event → Prop
  | .clock _ => True
  | .newId _ => True
  | _ => False

/-- The orchestrator is put together as `VantageApp.build` does, with containers as sandbox. The
provider talks to its own model only. -/
structure Wired (w : World) (d : DockerSandboxRunner) (o : Orchestrator History) : Prop where
  registry : ∃ policy manifests lock options,
    VantageApp.build w (d.runner w) policy manifests lock options = .ok o.registry
  plans : PlansItself o
  regex : o.env.regex = w.regex
  clock : ∀ h, ∃ now, o.env.clock h = (now, .clock now :: h)
  newIds : ∀ h, Effect.Appended Reads h (o.env.newIds h).2
  prober : o.proberFactory = some fun target ↦ do
    let now ← Effect.total o.env.clock
    pure ((HttpProber.ofTarget target now).prober w)
  validation : o.validation = {}
  available : ∀ h, (o.analyst.available h).2 = h
  complete : ∀ findings h, (o.analyst.complete findings h).2 = h

/-! ## What can be explained -/

/-- The scope of an engine's own client: the rules of the target, validated again. -/
def clientScope (target : Target) : Except PyError ScopeEngine := do
  let rules ← (target.scopeRules.map ScopeRule.dump).mapM ScopeRule.modelValidate
  pure (.fromRules rules true)

/-- The options of every container, whatever is scanned. -/
def confinement : List Setting :=
  [("--rm", none), ("--read-only", none), ("--cap-drop", some "ALL"),
    ("--security-opt", some "no-new-privileges"), ("--user", some "65532:65532"),
    ("--pids-limit", some "512"), ("--cpus", some "1.0"), ("--memory", some "1024m"),
    ("--memory-swap", some "1024m"), ("--workdir", some "/work"),
    ("--tmpfs", some "/work:rw,size=512m,mode=1777"),
    ("--tmpfs", some "/out:rw,size=512m,mode=1777"), ("--network", some "vantage-egress")]

/-- The command runs the image of the adapter in a container that is locked down, with the
arguments that the adapter writes for the request. -/
structure Confined (d : DockerSandboxRunner) (a : ContainerAdapter) (request : EngineRunRequest)
    (argv : List String) : Prop where
  command : argv.take 2 = [d.dockerBin, "run"]
  options : (read dockerGrammar (argv.drop 2)).1 = confinement
  tool : ∃ args, a.prepareArgs request = .ok args ∧
    (read dockerGrammar (argv.drop 2)).2 = a.engine.image :: args

/-- An event of a scan of the target. -/
inductive Explained (w : World) (d : DockerSandboxRunner) (target : Target) : Event → Prop
  | request {method url : String} {outcome : HttpOutcome} {scope : ScopeEngine}
      (hscope : (∃ now, scope = .ofTarget target now) ∨ clientScope target = .ok scope)
      (hallows : scope.Allows w.regex url (some method)) :
      Explained w d target (.request method url outcome)
  | handshake {url host : String} {port : ℤ} {info : TlsInfo}
      (hseed : SeedOf w.regex target url) (hend : Tls.targetOf url = .ok (some (host, port))) :
      Explained w d target (.handshake host port info)
  | inspected {outcome : ProcessOutcome} :
      Explained w d target (.process [d.dockerBin, "info"] outcome)
  | contained {a : ContainerAdapter} {request : EngineRunRequest} {seeds argv : List String}
      {outcome : ProcessOutcome} (ha : a ∈ ossAdapters) (hasks : Asks target seeds request)
      (hseeds : ∀ url ∈ seeds, SeedOf w.regex target url) (hconfined : Confined d a request argv) :
      Explained w d target (.process argv outcome)
  | clock {now : Time} : Explained w d target (.clock now)
  | newId {id : String} : Explained w d target (.newId id)

theorem quiet_explained : World.Quiet (Explained w d target) := ⟨fun _ ↦ .clock, fun _ ↦ .newId⟩

theorem explained_of_reads {e : Event} (h : Reads e) : Explained w d target e := by
  cases e with
  | clock now => exact .clock
  | newId id => exact .newId
  | request => exact h.elim
  | handshake => exact h.elim
  | process => exact h.elim

/-! ## Engines -/

/-- The request is one for the target, with seeds for it. -/
theorem asks_of_requestFor (hregex : o.env.regex = w.regex) (h : RequestFor o target request) :
    ∃ seeds, Asks target seeds request ∧ ∀ url ∈ seeds, SeedOf w.regex target url := by
  obtain ⟨scan, md, task, seeds, runId, hseeds, hrequest⟩ := h
  exact ⟨seeds, asks_of_modelValidate hrequest, hregex ▸ hseeds⟩

theorem scopeOf_asks {seeds : List String} (h : Asks target seeds request) :
    scopeOf request = clientScope target := by
  rw [scopeOf, h.scopeRules, clientScope]

theorem explained_native {seeds : List String} (hasks : Asks target seeds request)
    (hseeds : ∀ url ∈ seeds, SeedOf w.regex target url) {a : NativeAdapter}
    (ha : a ∈ nativeAdapters) :
    Effect.Logs (Explained w d target) (fun _ ↦ True) ((a.toEngineAdapter w).lifecycle request)
      (AllReport fun _ ↦ True) := by
  apply Native.logs_lifecycle
  intro c hc
  obtain ⟨scope, hscope, hclient⟩ := ExceptList.exists_of_bind_ok hc
  obtain rfl := Except.ok.inj hclient
  rw [scopeOf_asks hasks] at hscope
  have hpermits : Permits w { scope := scope } (Explained w d target) :=
    { toQuiet := quiet_explained
      request := fun _ _ _ hallows ↦ .request (Or.inr hscope) hallows }
  simp only [nativeAdapters, List.mem_cons, List.not_mem_nil, or_false] at ha
  rcases ha with rfl | rfl | rfl | rfl | rfl
  · exact logs_headers hpermits (by simp)
  · exact logs_fingerprint hpermits (by simp)
  · refine Tls.logs_analyze quiet_explained (fun targets htargets t ht info ↦ ?_) (by simp)
    obtain ⟨url, hurl, htarget⟩ := (mem_targetsOf htargets t).mp ht
    exact .handshake (hseeds url (hasks.seedUrls ▸ hurl)) htarget
  · exact Crawler.logs_analyze hpermits yields_all (by simp)
  · exact Effect.Logs.pure (by simp [AllReport])

theorem image_plain {a : ContainerAdapter} (ha : a ∈ ossAdapters) :
    startsWith a.engine.image "-" = false := by
  have hall : ∀ a ∈ ossAdapters, startsWith a.engine.image "-" = false := by decide
  exact hall a ha

/-- The options do not depend on the engine or on the arguments. -/
theorem dockerOptions_baseSpec (e : ContainerEngine) (args : List String) :
    dockerOptions (e.baseSpec args) = confinement := by
  have hsame : dockerOptions (e.baseSpec args) =
      dockerOptions { image := "", args := [], network := .scopedEgress, limits := {} } := rfl
  rw [hsame]
  decide +kernel

theorem confined_baseSpec {a : ContainerAdapter} (ha : a ∈ ossAdapters) {args : List String}
    (hargs : a.prepareArgs request = .ok args) :
    Confined d a request (d.buildArgv (a.engine.baseSpec args)) := by
  have hread : read dockerGrammar ((d.buildArgv (a.engine.baseSpec args)).drop 2) =
      (dockerOptions (a.engine.baseSpec args), a.engine.image :: args) :=
    read_buildArgv (image_plain ha)
  refine ⟨rfl, ?_, args, hargs, ?_⟩
  · rw [hread, dockerOptions_baseSpec]
  · rw [hread]

/-- What a container engine appends to the history is explained. -/
theorem explained_container {seeds : List String} (hasks : Asks target seeds request)
    (hseeds : ∀ url ∈ seeds, SeedOf w.regex target url) {a : ContainerAdapter}
    (ha : a ∈ ossAdapters) (version : String) :
    Effect.Logs (Explained w d target) (fun _ ↦ True)
      ((a.toEngineAdapter w (d.runner w) version).lifecycle request) fun _ ↦ True := by
  have hprepare : ∀ spec, a.prepareTarget request = .ok spec →
      ∃ args, a.prepareArgs request = .ok args ∧ spec = a.engine.baseSpec args := by
    intro spec h
    obtain ⟨args, hargs, hspec⟩ := ExceptList.exists_of_bind_ok h
    exact ⟨args, hargs, (Except.ok.inj hspec).symm⟩
  refine Effect.Logs.bind_of_returns (Effect.Logs.ofExcept (by simp))
    (Effect.Returns.ofExcept hprepare) fun spec hspec ↦ ?_
  obtain ⟨args, hargs, rfl⟩ := hspec
  have hprocess : Effect.Logs (Explained w d target) (fun _ ↦ True)
      (w.runProcess (d.buildArgv (a.engine.baseSpec args))
        (some (a.engine.baseSpec args).limits.timeoutSeconds)) fun _ ↦ True := by
    intro h
    refine ⟨[.process (d.buildArgv (a.engine.baseSpec args)) _], rfl, ?_, by simp⟩
    exact List.forall_mem_singleton.mpr (.contained ha hasks hseeds (confined_baseSpec ha hargs))
  have hrun : Effect.Logs (Explained w d target) (fun _ ↦ True)
      (d.run w (a.engine.baseSpec args)) fun _ ↦ True := by
    refine Effect.Logs.bind hprocess fun outcome ↦ ?_
    cases outcome with
    | exited code stdout stderr => exact Effect.Logs.pure (by simp)
    | timedOut stdout stderr => exact Effect.Logs.pure (by simp)
    | failure message => exact Effect.Logs.silent (fun _ ↦ rfl) (by simp)
  refine Effect.Logs.bind (Q := fun _ ↦ True) ?_ fun outcome ↦ ?_
  · exact Effect.Logs.bind hrun fun result ↦ Effect.Logs.pure (by simp)
  refine Effect.Logs.bind (Effect.Logs.ofExcept (Q := fun _ ↦ True) (by simp)) fun raw ↦ ?_
  refine Effect.Logs.bind (logs_normalize quiet_explained ha) fun observations ↦ ?_
  exact Effect.Logs.bind (Effect.Logs.pure (Q := fun _ ↦ True) (by simp)) fun _ ↦
    Effect.Logs.pure (by simp)

/-- Docker is asked whether it is there. -/
theorem explained_available :
    Effect.Logs (Explained w d target) (fun _ ↦ True) (d.available w) fun _ ↦ True := by
  have hinfo : Effect.Logs (Explained w d target) (fun _ ↦ True)
      (w.runProcess [d.dockerBin, "info"] none) fun _ ↦ True := fun h ↦
    ⟨[.process [d.dockerBin, "info"] _], rfl, List.forall_mem_singleton.mpr .inspected, by simp⟩
  have hfound : Effect.Logs (Explained w d target) (fun _ ↦ True) (w.onPath d.dockerBin)
      fun _ ↦ True := Effect.Logs.silent (fun _ ↦ rfl) (by simp)
  refine Effect.Logs.bind hfound fun found ↦ ?_
  split_ifs
  · exact Effect.Logs.pure (by simp)
  · refine Effect.Logs.bind hinfo fun outcome ↦ ?_
    cases outcome with
    | exited code stdout stderr => exact Effect.Logs.pure (by simp)
    | timedOut stdout stderr => exact Effect.Logs.pure (by simp)
    | failure message => exact Effect.Logs.silent (fun _ ↦ rfl) (by simp)

/-! ## Validation -/

theorem explained_probe (now : Time) (url : String) :
    Effect.Logs (Explained w d target) (fun _ ↦ True)
      (((HttpProber.ofTarget target now).prober w).get url) fun _ ↦ True := by
  have hpermits : Permits w (HttpProber.ofTarget target now).client (Explained w d target) :=
    { toQuiet := quiet_explained
      request := fun _ _ _ hallows ↦ .request (Or.inl ⟨now, rfl⟩) hallows }
  exact Effect.Logs.bind (logs_fetch hpermits "GET" url) fun res ↦ Effect.Logs.pure (by simp)

/-! ## Runs -/

namespace Wired

variable (h : Wired w d o)
include h

theorem reads_clock : Effect.Moves (Effect.Appended Reads)
    (Effect.total o.env.clock : Effect PyError History Time) := by
  intro log
  obtain ⟨now, hnow⟩ := h.clock log
  refine ⟨[.clock now], ?_, List.forall_mem_singleton.mpr True.intro⟩
  rw [Effect.total_apply, hnow]
  rfl

/-- The calls of a run outside the database can be explained. -/
theorem moving (target : Target) : Moving (Effect.Appended (Explained w d target)) o target := by
  obtain ⟨policy, manifests, lock, options, hbuild⟩ := h.registry
  have hclock : Effect.Moves (Effect.Appended (Explained w d target))
      (Effect.total o.env.clock : Effect PyError History Time) :=
    h.reads_clock.mono fun _ _ hreads ↦ hreads.mono fun _ ↦ explained_of_reads
  have hshipped : ∀ i x, o.registry.adapterFor i = some x → Shipped w (d.runner w) i x :=
    fun i x hx ↦ shipped_of_adapterFor hbuild hx
  have hsilent : ∀ {α : Type} {m : Action α}, (∀ log, (m log).2 = log) →
      Effect.Moves (Effect.Appended (Explained w d target)) m := by
    intro α m hm log
    rw [hm log]
    exact refl_of (Effect.Appended (Explained w d target)) log
  refine ⟨h.plans, hclock, fun log ↦ ?_, fun i x hx ↦ ?_, fun i x hx ↦ ?_,
    fun i x hx request hrequest ↦ ?_, fun factory hfactory ↦ ?_,
    fun factory hfactory log prober log' hprober strategy hstrategy obs ↦ ?_,
    hsilent h.available, fun findings ↦ hsilent (h.complete findings)⟩
  · exact (h.newIds log).mono fun _ ↦ explained_of_reads
  · rcases hshipped i x hx with ⟨a, -, -, rfl⟩ | ⟨a, -, -, version, rfl⟩
    · exact .pure _
    · exact .pure _
  · rcases hshipped i x hx with ⟨a, -, -, rfl⟩ | ⟨a, -, -, version, rfl⟩
    · exact .pure _
    · exact explained_available.moves.bind fun available ↦ .pure _
  · obtain ⟨seeds, hasks, hseeds⟩ := asks_of_requestFor h.regex hrequest
    rcases hshipped i x hx with ⟨a, ha, -, rfl⟩ | ⟨a, ha, -, version, rfl⟩
    · exact (explained_native hasks hseeds ha).moves
    · exact (explained_container hasks hseeds ha version).moves
  · obtain rfl := Option.some.inj (h.prober.symm.trans hfactory)
    exact hclock.bind fun now ↦ .pure _
  · obtain rfl := Option.some.inj (h.prober.symm.trans hfactory)
    obtain ⟨now, log₁, -, hpure⟩ := Effect.exists_of_bind_ok hprober
    obtain ⟨rfl, -⟩ := Effect.eq_of_pure hpure
    rw [h.validation] at hstrategy
    exact moves_strategy (fun url ↦ (explained_probe now url).moves) hstrategy obs

end Wired

/-! ## Requests -/

theorem revalidated_eq {rule rule' : ScopeRule} (hplain : lowerHost rule.host = rule.host)
    (h : ScopeRule.modelValidate rule.dump = .ok rule') : rule' = rule := by
  have hschemes : rule.schemes.map lower = rule.schemes := by
    refine (List.map_congr_left fun s hs ↦ ?_).trans (List.map_id _)
    have hall : ∀ s ∈ supportedSchemes, lower s = s := by decide +kernel
    exact hall s (rule.schemes_ok s hs)
  have hmethods : rule.methods.map (·.map upper) = rule.methods := by
    cases hrule : rule.methods with
    | none => rfl
    | some ms =>
        refine congrArg some ((List.map_congr_left fun m hm ↦ ?_).trans (List.map_id _))
        exact rule.methods_ok ms hrule m hm
  have hdump := dump_modelValidate h
  have hsame : rule'.dump = rule.dump := by
    rw [hdump]
    simp only [ScopeRule.dump, hplain, hschemes, hmethods]
  obtain ⟨kind, host, schemes, ports, pathPrefix, pathRegex, methods⟩ := rule
  obtain ⟨kind', host', schemes', ports', pathPrefix', pathRegex', methods'⟩ := rule'
  simp only [ScopeRule.dump, RawScopeRule.mk.injEq] at hsame
  obtain ⟨rfl, rfl, rfl, rfl, rfl, rfl, rfl⟩ := hsame
  rfl
/-- Rules that are stored in their normal form are the same when they are validated again. -/
theorem clientScope_eq (hplain : ∀ rule ∈ target.scopeRules, lowerHost rule.host = rule.host)
    {scope : ScopeEngine} (h : clientScope target = .ok scope) :
    scope = .fromRules target.scopeRules true := by
  obtain ⟨rules, hrules, h⟩ := ExceptList.exists_of_bind_ok h
  obtain rfl := Except.ok.inj h
  have hsame : ∀ {l : List ScopeRule} {rules : List ScopeRule},
      (∀ rule ∈ l, lowerHost rule.host = rule.host) →
        (l.map ScopeRule.dump).mapM ScopeRule.modelValidate = .ok rules → rules = l := by
    intro l
    induction l with
    | nil =>
        intro rules _ hrules
        exact (Except.ok.inj hrules).symm
    | cons rule l ih =>
        intro rules hl hrules
        rw [List.map_cons, List.mapM_cons] at hrules
        obtain ⟨first, hfirst, hrules⟩ := ExceptList.exists_of_bind_ok hrules
        obtain ⟨rest, hrest, hrules⟩ := ExceptList.exists_of_bind_ok hrules
        obtain rfl := Except.ok.inj hrules
        rw [ih (fun rule' hrule' ↦ hl rule' (List.mem_cons_of_mem _ hrule')) hrest]
        refine congrArg (· :: l) ?_
        exact revalidated_eq (hl rule List.mem_cons_self) hfirst
  rw [hsame hplain hrules]

theorem allows_fromRules_of_ofTarget {re : Scope.RegexEngine String} {now : Time} {url : String}
    {method : Option String} (h : (ScopeEngine.ofTarget target now).Allows re url method) :
    (ScopeEngine.fromRules target.scopeRules true).Allows re url method := by
  unfold ScopeEngine.ofTarget at h
  cases hauthorized : target.isAuthorized now with
  | true => rwa [hauthorized] at h
  | false =>
      rw [hauthorized, ScopeEngine.Allows, verdict_of_not_authorized rfl] at h
      exact absurd h (by simp)

/-! ## The law -/

/-- What a scan of the target has appended to the history. -/
structure Explains (w : World) (d : DockerSandboxRunner) (target : Target) (authorized : Bool)
    (log log' : History) : Prop where
  all : Effect.Appended (Explained w d target) log log'
  requests : (∀ rule ∈ target.scopeRules, lowerHost rule.host = rule.host) →
    Effect.Appended (fun e ↦ ∀ method url outcome, e = .request method url outcome →
      (ScopeEngine.fromRules target.scopeRules true).Allows w.regex url (some method)) log log'
  unauthorized : authorized = false → Effect.Appended Reads log log'

/-- A request that is explained is allowed by rules in their normal form. -/
theorem allowed_of_explained (hplain : ∀ rule ∈ target.scopeRules, lowerHost rule.host = rule.host)
    {e : Event} (he : Explained w d target e) (method url : String) (outcome : HttpOutcome)
    (hrequest : e = .request method url outcome) :
    (ScopeEngine.fromRules target.scopeRules true).Allows w.regex url (some method) := by
  subst hrequest
  cases he with
  | request hscope hallows =>
      rcases hscope with ⟨now, rfl⟩ | hclient
      · exact allows_fromRules_of_ofTarget hallows
      · rwa [clientScope_eq hplain hclient] at hallows

theorem appended_explained_run (h : Wired w d o) (scan : Scan) (target : Target)
    (p : Platform History) :
    Effect.Appended (Explained w d target) p.world (o.run scan target p).2.world := by
  have hstart : Effect.Appended Reads p.world (o.env.clock p.world).2 := h.reads_clock p.world
  rw [run_eq]
  refine trans_of (Effect.Appended (Explained w d target))
    (hstart.mono fun _ ↦ explained_of_reads) ?_
  split_ifs
  · exact (h.moving target).conduct scan { p with world := (o.env.clock p.world).2 }
  · exact outside_refuse (h.moving target).clock scan { p with world := (o.env.clock p.world).2 }

/-- The application on a host, with any registry. -/
def hostOrchestrator (w : World) (reg : EngineRegistry History) : Orchestrator History where
  env :=
    { clock := fun h ↦ (w.clock h, .clock (w.clock h) :: h)
      newIds := fun h ↦ (fun _ ↦ w.newId h, .newId (w.newId h) :: h)
      regex := w.regex
      loads := w.loads
      digests := demoDigests
      evidenceVariable := none }
  registry := reg
  risk f := (RiskEngine.apply f).riskScore
  proberFactory := some fun target ↦ do
    let now ← Effect.total fun h ↦ (w.clock h, .clock (w.clock h) :: h)
    pure ((HttpProber.ofTarget target now).prober w)

theorem wired_hostOrchestrator {policy : LicensePolicy} {manifests : List EngineManifest}
    {lock : EngineLock} {options : BuildOptions} {reg : EngineRegistry History}
    (hbuild : VantageApp.build w (d.runner w) policy manifests lock options = .ok reg) :
    Wired w d (hostOrchestrator w reg) where
  registry := ⟨policy, manifests, lock, options, hbuild⟩
  plans := rfl
  regex := rfl
  clock _ := ⟨_, rfl⟩
  newIds h := ⟨[.newId (w.newId h)], rfl, List.forall_mem_singleton.mpr True.intro⟩
  prober := rfl
  validation := rfl
  available _ := rfl
  complete _ _ := rfl

end Vantage
