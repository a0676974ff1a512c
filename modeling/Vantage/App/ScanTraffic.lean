import Vantage.App.ScanCommand

/-!
# What the scan command sends

With containers as sandbox, all that the command does outside the machine is
confined to the directories of the URLs that were given on its command line.
-/

namespace Vantage

open Adapters Adapters.Native Adapters.Oss Ai CommandLine Engines Findings Governance Persistence Scan Scope Text

/-! ## Hosts in their normal form -/

theorem isSpace_of_toLower {c : Char} (h : isSpace c.toLower = true) : isSpace c = true := by
  have hletter : ¬ ('a'.val ≤ c.toLower.val ∧ c.toLower.val ≤ 'z'.val) := by
    rintro ⟨ha, hz⟩
    have hlow : 97 ≤ c.toLower.toNat := UInt32.le_iff_toNat_le.mp ha
    have hhigh : c.toLower.toNat ≤ 122 := UInt32.le_iff_toNat_le.mp hz
    simp only [isSpace, Bool.or_eq_true, Bool.and_eq_true, decide_eq_true_eq, beq_iff_eq] at h
    omega
  rwa [eq_of_toLower_eq rfl hletter]

theorem lowerHost_siteHost {host : String} (h : ∀ c ∈ host.toList, isSpace c = false) :
    lowerHost (siteHost host) = siteHost host := by
  have hblank : ∀ c ∈ (siteHost host).toList, isSpace c = false := by
    intro c hc
    rw [siteHost, rstrip, String.toList_ofList] at hc
    have hlower := (prefix_rstripChars _ _).subset hc
    rw [toList_lower] at hlower
    obtain ⟨d, hd, rfl⟩ := List.mem_map.mp hlower
    by_contra hspace
    have hold := isSpace_of_toLower (Bool.eq_true_of_not_eq_false hspace)
    rw [h d hd] at hold
    cases hold
  have hstrip : strip (siteHost host) = siteHost host := by
    have hchars : stripChars isSpace (siteHost host).toList = (siteHost host).toList :=
      stripChars_eq_self (fun c hc ↦ hblank c (List.mem_of_mem_head? hc))
        fun c hc ↦ hblank c (List.mem_of_mem_getLast? hc)
    rw [strip, hchars, String.ofList_toList]
  calc lowerHost (siteHost host) = rstrip (lower (siteHost host)) '.' := by rw [lowerHost, hstrip]
    _ = siteHost (siteHost host) := rfl
    _ = siteHost host := siteHost_siteHost host

/-- Validating a default rule again leaves it as it is. -/
theorem lowerHost_defaultRule {bases : List String} {rules : List ScopeRule}
    (hbases : ∀ base ∈ bases, WebBase base) (hrules : defaultScopeRulesFor bases = .ok rules)
    {rule : ScopeRule} (hrule : rule ∈ rules) : lowerHost rule.host = rule.host := by
  obtain ⟨base, hbase, place, hplace, hfor⟩ :=
    exists_base_of_rule (forall₂_defaultScopeRulesFor hbases hrules) hrule
  obtain ⟨parts, host, hsplit, hhost, -, hblank, -⟩ := hbases base hbase
  simp only [Scope.placeOf, hsplit, hhost, Option.bind_eq_bind, Option.bind_some] at hplace
  obtain ⟨explicit, -, hplace⟩ := Option.bind_eq_some_iff.mp hplace
  obtain rfl := Option.some.inj hplace
  rw [hfor.host]
  exact lowerHost_siteHost hblank

/-! ## What stays on the sites -/

/-- The URL lies in the directory of a base URL. -/
def Under (bases : List String) (url : String) : Prop := ∃ base ∈ bases, BelowUrl base url

/-- An event of a scan of the sites below the base URLs. -/
inductive OnSite (bases : List String) : Event → Prop
  | request {method url : String} {outcome : HttpOutcome} (h : Under bases url) :
      OnSite bases (.request method url outcome)
  | handshake {url host : String} {port : ℤ} {info : TlsInfo} (h : Under bases url)
      (hend : Tls.targetOf url = .ok (some (host, port))) : OnSite bases (.handshake host port info)
  | inspected {outcome : ProcessOutcome} : OnSite bases (.process ["docker", "info"] outcome)
  | contained {a : ContainerAdapter} {request : EngineRunRequest} {argv : List String}
      {outcome : ProcessOutcome} (ha : a ∈ ossAdapters)
      (hseeds : ∀ url ∈ request.seedUrls, Under bases url) (hconfined : Confined {} a request argv) :
      OnSite bases (.process argv outcome)
  | clock {now : Time} : OnSite bases (.clock now)
  | newId {id : String} : OnSite bases (.newId id)

theorem onSite_of_reads {bases : List String} {e : Event} (h : Reads e) : OnSite bases e := by
  cases e with
  | clock now => exact .clock
  | newId id => exact .newId
  | request => exact h.elim
  | handshake => exact h.elim
  | process => exact h.elim

variable {inst : Installation} {args : ScanArgs} {target : Target}

section Commissioned

variable (htarget : Commissioned inst args target)
  (hbases : ∀ base ∈ target.baseUrls, WebBase base)

include htarget hbases

theorem under_iff {re : RegexEngine String} {now : Time} {url : String} {method : Option String} :
    (ScopeEngine.ofTarget target now).Allows re url method ↔ Under target.baseUrls url :=
  (allows_defaultRules_iff re target now (htarget.authorized now) hbases htarget.scopeRules
    method).1 url

theorem under_of_seed {re : RegexEngine String} {url : String} (h : SeedOf re target url) :
    Under target.baseUrls url := by
  rcases h with hbase | ⟨now, hallows⟩
  · exact (under_iff htarget hbases).mp ((allows_defaultRules_iff re target 0
      (htarget.authorized 0) hbases htarget.scopeRules none).2 url hbase)
  · exact (under_iff htarget hbases).mp hallows

/-- What can be explained for the target stays on its sites. -/
theorem onSite_of_explained {w : World} {e : Event} (h : Explained w {} target e) :
    OnSite target.baseUrls e := by
  cases h with
  | request hscope hallows =>
      refine .request ?_
      rcases hscope with ⟨now, rfl⟩ | hclient
      · exact (under_iff htarget hbases).mp hallows
      · have hplain : ∀ rule ∈ target.scopeRules, lowerHost rule.host = rule.host :=
          fun rule ↦ lowerHost_defaultRule hbases htarget.scopeRules
        have hsame : ScopeEngine.fromRules target.scopeRules true = .ofTarget target 0 := by
          rw [ScopeEngine.ofTarget, htarget.authorized 0]
        rw [clientScope_eq hplain hclient, hsame] at hallows
        exact (under_iff htarget hbases).mp hallows
  | handshake hseed hend => exact .handshake (under_of_seed htarget hbases hseed) hend
  | inspected => exact .inspected
  | contained ha hasks hseeds hconfined =>
      refine .contained ha (fun url hurl ↦ ?_) hconfined
      exact under_of_seed htarget hbases (hseeds url (hasks.seedUrls ▸ hurl))
  | clock => exact .clock
  | newId => exact .newId

end Commissioned

/-! ## The command -/

theorem wired_orchestrator {detected : Option (List String)} {reg : EngineRegistry History}
    (hreg : registryOf inst args .docker detected = .ok reg) (choice : Option ProviderChoice) :
    Wired inst.world {} (inst.orchestrator reg choice) where
  registry := ⟨_, _, _, _, hreg⟩
  plans := rfl
  regex := rfl
  clock _ := ⟨_, rfl⟩
  newIds := inst.newIds_reads
  prober := rfl
  validation := rfl
  available h := by
    cases choice with
    | none => rfl
    | some c => exact inst.available_silent c h
  complete findings h := by
    cases choice with
    | none => rfl
    | some c => exact inst.complete_silent c findings h

/-- The base URLs of the command line. -/
def basesOf (inst : Installation) (args : ScanArgs) : List String :=
  (args.url.mapM inst.httpUrl).getD []

theorem Commissioned.basesOf_eq (h : Commissioned inst args target) :
    basesOf inst args = target.baseUrls := by
  rw [basesOf, h.baseUrls, Option.getD_some]

section OnSite

variable {bases : List String}

theorem moves_of_reads {α : Type} {m : Action α} (h : ∀ log, Effect.Appended Reads log (m log).2) :
    Effect.Moves (Effect.Appended (OnSite bases)) m :=
  fun log ↦ (h log).mono fun _ ↦ onSite_of_reads

theorem moves_newIds : Effect.Moves (Effect.Appended (OnSite bases))
    (Effect.total inst.newIds : Action (ℕ → String)) :=
  moves_of_reads inst.newIds_reads

theorem moves_utcnow (w : World) : Effect.Moves (Effect.Appended (OnSite bases)) w.utcnow :=
  moves_of_reads fun log ↦ ⟨[.clock (w.clock log)], rfl, List.forall_mem_singleton.mpr trivial⟩

theorem moves_enlist : Effect.Moves (Effect.Appended (OnSite bases)) (enlist inst args) := by
  refine (Effect.Moves.ofExcept _).bind fun kind ↦ (moves_utcnow _).bind fun verifiedAt ↦ ?_
  refine moves_newIds.bind fun ids ↦ (moves_utcnow _).bind fun createdAt ↦ ?_
  refine (Effect.Moves.ofExcept _).bind fun target ↦ ?_
  exact (Effect.Moves.ofExcept _).bind fun rules ↦ .pure _

variable (hbases : ∀ base ∈ basesOf inst args, WebBase base)

include hbases

theorem onSite_runScan {detected : Option (List String)} {reg : EngineRegistry History}
    (hreg : registryOf inst args .docker detected = .ok reg) (choice : Option ProviderChoice)
    (profile : ScanProfile) : Effect.Moves (Effect.Appended (OnSite (basesOf inst args)))
      (runScan inst args (inst.orchestrator reg choice) profile) := by
  refine moves_enlist.bind_of_returns returns_enlist fun target htarget ↦ ?_
  refine moves_newIds.bind fun ids ↦ (moves_utcnow _).bind fun createdAt ↦ fun log ↦ ?_
  have hrun := appended_explained_run (wired_orchestrator hreg choice)
    (cliScan profile target (ids 0) createdAt) target ⟨.empty, log⟩
  rw [htarget.basesOf_eq] at hbases ⊢
  exact hrun.mono fun e ↦ onSite_of_explained htarget hbases

/-- Tools are not looked for when containers are used. -/
theorem onSite_conductScan {log : History}
    (hdocker : selectRunner inst.world args.sandbox log = .docker) (profile : ScanProfile)
    (choice : Option ProviderChoice) : Effect.Appended (OnSite (basesOf inst args)) log
      (conductScan inst args profile choice log).2 := by
  have hmode : ¬ lower args.sandbox = "local" := by
    intro hlocal
    simp [selectRunner, hlocal] at hdocker
  have hbefore : Effect.Moves (Effect.Appended (OnSite (basesOf inst args)))
      (beforeBinding inst args) := by
    refine (Effect.Moves.ofExcept _).bind fun _ ↦ ?_
    rw [detectInstalled, if_neg hmode]
    exact .pure none
  refine Effect.rel_bind (refl_of _ log) fun h log' hget ↦ ?_
  obtain ⟨hlog, rfl⟩ := Prod.mk.inj hget
  obtain rfl := Except.ok.inj hlog
  refine Effect.rel_bind (hbefore log) fun detected log₁ _ ↦ ?_
  rw [hdocker]
  cases hreg : registryOf inst args .docker detected with
  | error e => exact refl_of (Effect.Appended (OnSite (basesOf inst args))) log₁
  | ok reg => exact onSite_runScan hbases hreg choice profile log₁

end OnSite

/-- The history has grown by events with the property. -/
def Grows (P : Event → Prop) (m m' : Machine) : Prop := Effect.Appended P m.world m'.world

instance {P : Event → Prop} : IsPreorder Machine (Grows P) where
  refl m := refl_of (Effect.Appended P) m.world
  trans _ _ _ h h' := trans_of (Effect.Appended P) h h'

theorem grows_of_world_eq {P : Event → Prop} {m m' : Machine} (h : m'.world = m.world) :
    Grows P m m' := by
  rw [Grows, h]
  exact refl_of (Effect.Appended P) m.world

theorem world_chooseProvider (m : Machine) : (chooseProvider inst args m).2.world = m.world := by
  have hkeeps : Effect.Keeps Machine.world (chooseProvider inst args) := by
    unfold chooseProvider
    split_ifs
    · refine Effect.Keeps.bind (fun _ ↦ rfl) fun choice ↦ ?_
      split_ifs
      · exact Effect.Keeps.bind (fun _ ↦ rfl) fun _ ↦ .pure _
      · exact .pure _
    · exact .pure _
  exact hkeeps m

theorem world_deliverReport (text : String) (m : Machine) :
    (deliverReport inst args text m).2.world = m.world := by
  have hkeeps : Effect.Keeps Machine.world (deliverReport inst args text) := by
    unfold deliverReport
    cases args.out with
    | none => exact fun _ ↦ rfl
    | some path =>
        by_cases hpath : path = ""
        · simp only [hpath, if_true]
          exact fun _ ↦ rfl
        · simp only [hpath, if_false]
          exact Effect.Keeps.bind (fun _ ↦ rfl) fun _ _ ↦ rfl
  exact hkeeps m

def headersManifest : EngineManifest where
  id := "vantage-headers"
  name := "Vantage Security Headers Analyzer"
  vendor := "Vantage DAST"
  license := "LicenseRef-Vantage-Proprietary"
  integration := .native
  capabilities := [.analysisHeaders, .analysisSecrets, .auditPassive]
  capabilities_ne := List.cons_ne_nil _ _

/-- A machine without tools, models and network. -/
def bareInstallation : Installation where
  world := refusingWorld
  host := plainHost
  programs := ⟨fun _ _ ↦ none, "/tmp", fun _ ↦ "x", fun _ _ ↦ []⟩
  policy := demoPolicy
  manifests := [headersManifest, nucleiManifest]
  lock := demoLock
  provider _ := nullProvider
  httpUrl := some
  newIds h := (demoIds, h)
  digests := demoDigests
  real _ := zeroFloat
  float _ := zeroFloat
  dumps := plainDumps
  newIds_injective _ := demoIds_injective
  newIds_reads h := refl_of (Effect.Appended Reads) h
  available_silent _ _ := rfl
  complete_silent _ _ _ := rfl
  real_reread _ := reread_zeroFloat

def portalArgs : ScanArgs where
  url := portalTarget.baseUrls
  authorize := true
  fmt := "sarif"
  out := some "report.sarif"
  sandbox := "docker"
  url_ne := portalTarget.baseUrls_ne

def bareMachine : Machine := ⟨fun _ ↦ none, [], []⟩

end Vantage
