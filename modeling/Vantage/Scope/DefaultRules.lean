import Vantage.Lib.ExceptList
import Vantage.Scope.Respelling

/-!
# The default scope

The rules that are derived from the base URLs of a target let exactly the
directories of these URLs through. A base URL is one that the URL type of
the target model accepts: `http` or `https` with a host in which no blank
stands.
-/

namespace Vantage.Scope

open Text IpAddress

variable {re : RegexEngine String} {method : Option String}

/-- Where a URL points to, with the host and the path as they are written. -/
structure Place where
  scheme : String
  host : String
  port : ℕ
  path : String
deriving DecidableEq, Repr

def placeOf (url : String) : Option Place := do
  let parts ← Url.urlsplit url
  let host ← parts.hostname
  let explicit ← parts.port
  some ⟨lower parts.scheme, host, portOrDefault (lower parts.scheme) explicit, parts.path⟩

/-- A host without letter case and trailing dots. -/
def siteHost (host : String) : String := rstrip (lower host) '.'

/-- Equal up to letter case and trailing dots, or equal as addresses. -/
def SameHost (a b : String) : Prop :=
  siteHost a = siteHost b ∨
    ∃ addr, ipAddress (siteHost a) = some addr ∧ ipAddress (siteHost b) = some addr

/-- A place in the directory of another one. -/
structure Below (base place : Place) : Prop where
  scheme : place.scheme = base.scheme
  host : SameHost place.host base.host
  port : place.port = base.port
  path : startsWith (effectivePath place.path) (directoryOf base.path) = true

def BelowUrl (base url : String) : Prop :=
  ∃ b u, placeOf base = some b ∧ placeOf url = some u ∧ Below b u

/-- An absolute web address with a host that is no wildcard. -/
def WebBase (base : String) : Prop :=
  ∃ parts host, Url.urlsplit base = some parts ∧ parts.hostname = some host ∧
    (parts.scheme = "http" ∨ parts.scheme = "https") ∧
    (∀ c ∈ host.toList, isSpace c = false) ∧ startsWith host "*." = false

/-! ## Places -/

theorem parse_eq_some_iff {url : String} {v : ParsedUrl} : parse url method = some v ↔
    ∃ p, placeOf url = some p ∧ p.scheme ≠ "" ∧ p.port ≠ 0 ∧
      v = ⟨p.scheme, siteHost p.host, p.port, effectivePath p.path, upperMethod method⟩ := by
  unfold parse placeOf siteHost
  cases Url.urlsplit url with
  | none => simp
  | some parts =>
      have hscheme : lower parts.scheme = "" ↔ parts.scheme = "" := by
        simp [lower]
      simp only [Option.bind_eq_bind, Option.bind_some]
      cases parts.hostname with
      | none => simp
      | some host =>
          cases parts.port with
          | none => simp
          | some explicit =>
              simp only [Option.bind_some, Option.some.injEq, exists_eq_left', ne_eq, hscheme]
              by_cases hempty : parts.scheme = ""
              · simp [hempty]
              · by_cases hport : portOrDefault (lower parts.scheme) explicit = 0
                · simp [hport]
                · simp [hempty, hport, eq_comm]

theorem sameHost_refl (host : String) : SameHost host host := Or.inl rfl

/-! ## Hosts -/

theorem slash_notMem_netloc {url : String} {parts : Url.SplitResult}
    (h : Url.urlsplit url = some parts) : '/' ∉ parts.netloc.toList := by
  unfold Url.urlsplit at h
  dsimp only at h
  split_ifs at h
  obtain rfl := Option.some.inj h
  rw [String.toList_ofList]
  intro hslash
  unfold Url.splitNetloc at hslash
  split at hslash
  · have hdelimiter := List.mem_takeWhile_imp hslash
    simp [Url.isDelimiter] at hdelimiter
  · simp at hslash

theorem hostinfo_subset (netloc : List Char) : (Url.hostinfo netloc).1 ⊆ netloc := by
  have hinfo := (afterLast_suffix '@' netloc).subset
  intro c hc
  unfold Url.hostinfo at hc
  dsimp only at hc
  split at hc
  · rename_i before bracketed hcut
    have hrest := (cut_snd_suffix (congrArg Prod.snd hcut)).subset
    exact hinfo (hrest ((cut_fst_sublist ']' bracketed).subset hc))
  · exact hinfo ((cut_fst_sublist ':' _).subset hc)

theorem slash_notMem_hostname {url host : String} {parts : Url.SplitResult}
    (hsplit : Url.urlsplit url = some parts) (hhost : parts.hostname = some host) :
    '/' ∉ host.toList := by
  obtain ⟨name, hname, rfl⟩ := Option.map_eq_some_iff.mp hhost
  have hnetloc := slash_notMem_netloc hsplit
  have hinfo := fun h ↦ hnetloc (hostinfo_subset _ h)
  unfold Url.hostnameOf at hname
  dsimp only at hname
  split_ifs at hname
  obtain rfl := Option.some.inj hname
  rw [String.toList_ofList, List.mem_append, List.mem_map]
  rintro (⟨c, hc, hlower⟩ | hzone)
  · rw [eq_of_toLower_eq hlower (by decide)] at hc
    exact hinfo ((cut_fst_sublist '%' _).subset hc)
  · cases hcut : (cut '%' (Url.hostinfo parts.netloc.toList).1).2 with
    | none => simp [hcut] at hzone
    | some zone =>
        rw [hcut] at hzone
        rcases List.mem_cons.mp hzone with heq | hmem
        · exact absurd heq (by decide)
        · exact hinfo ((cut_snd_suffix hcut).subset hmem)

theorem siteHost_siteHost (host : String) : siteHost (siteHost host) = siteHost host := by
  rw [siteHost, siteHost, lower_rstrip_lower, rstrip_rstrip]

theorem slash_notMem_siteHost {host : String} (h : '/' ∉ host.toList) :
    '/' ∉ (siteHost host).toList := by
  intro hslash
  rw [siteHost, rstrip, String.toList_ofList] at hslash
  have hlower := (prefix_rstripChars _ _).subset hslash
  rw [toList_lower] at hlower
  obtain ⟨c, hc, heq⟩ := List.mem_map.mp hlower
  exact h (eq_of_toLower_eq heq (by decide) ▸ hc)

theorem wildcard_of_siteHost {host : String} (h : startsWith (siteHost host) "*." = true) :
    startsWith host "*." = true := by
  have hplain : ∀ d ∈ ['*', '.'], ¬ ('a'.val ≤ d.val ∧ d.val ≤ 'z'.val) := by decide
  have htext : "*.".toList = ['*', '.'] := by simp
  rw [startsWith_iff, htext] at h ⊢
  rw [siteHost, rstrip, String.toList_ofList] at h
  have hlower := h.trans (prefix_rstripChars _ _)
  rw [toList_lower] at hlower
  exact prefix_of_prefix_toLower hlower hplain

/-- A rule for a host that is neither a wildcard nor a block compares hosts or addresses. -/
theorem hostMatches_iff {ruleHost host : String} (hslash : '/' ∉ ruleHost.toList)
    (hstar : startsWith ruleHost "*." = false) : hostMatches ruleHost host = true ↔
      ruleHost = host ∨ ∃ addr, ipAddress ruleHost = some addr ∧ ipAddress host = some addr := by
  have hblock : ruleHost.toList.contains '/' = false := by simpa using hslash
  unfold hostMatches
  by_cases heq : ruleHost = host
  · simp [heq]
  · simp only [hstar, hblock, Bool.false_eq_true, if_false, heq, false_or]
    cases ipAddress host with
    | none => simp
    | some addr =>
        cases ipAddress ruleHost with
        | none => simp
        | some ruleAddr =>
            rw [beq_iff_eq]
            constructor
            · rintro rfl
              exact ⟨addr, rfl, rfl⟩
            · rintro ⟨_, hrule, haddr⟩
              exact Option.some.inj (haddr.trans hrule.symm)
/-! ## The rule of a base URL -/

/-- What the rule for a place asks of a request. -/
structure RuleFor (base : Place) (rule : ScopeRule) : Prop where
  kind : rule.kind = .include_
  host : rule.host = siteHost base.host
  schemes : rule.schemes = [base.scheme]
  ports : ∀ port, portMatches rule.ports base.scheme port = true ↔ port = base.port
  pathPrefix : rule.pathPrefix = directoryOf base.path
  pathRegex : rule.pathRegex = none
  methods : rule.methods = none
  named : '/' ∉ rule.host.toList ∧ startsWith rule.host "*." = false

theorem portMatches_default {scheme : String} (h : scheme = "http" ∨ scheme = "https")
    (explicit : Option ℕ) (port : ℕ) :
    portMatches (match explicit with
      | some p => if p = 0 then none else some [(p : ℤ)]
      | none => none) scheme port = true ↔ port = portOrDefault scheme explicit := by
  have hdefault : portMatches none scheme port = true ↔ port = (defaultPort scheme).getD 0 := by
    have hnone : portMatches none scheme port = true ↔ defaultPort scheme = some port := by
      simp [portMatches]
    rw [hnone]
    rcases h with rfl | rfl <;> exact ⟨fun h ↦ (Option.some.inj h).symm, fun h ↦ congrArg some h.symm⟩
  cases explicit with
  | none => exact hdefault
  | some p =>
      by_cases hp : p = 0
      · simpa [hp, portOrDefault] using hdefault
      · simp [hp, portOrDefault, portMatches]

theorem dump_modelValidate {raw : RawScopeRule} {rule : ScopeRule}
    (h : ScopeRule.modelValidate raw = .ok rule) : rule.dump =
      { raw with
        host := lowerHost raw.host
        schemes := raw.schemes.map lower
        methods := raw.methods.map (·.map upper) } := by
  unfold ScopeRule.modelValidate at h
  dsimp only at h
  split at h
  · obtain rfl := Except.ok.inj h
    rfl
  · cases h

theorem ruleFor_of_modelValidate {base : Place} {ports : Option (List ℤ)} {rule : ScopeRule}
    (hscheme : lower base.scheme = base.scheme)
    (hports : ∀ port, portMatches ports base.scheme port = true ↔ port = base.port)
    (hblank : ∀ c ∈ base.host.toList, isSpace c = false)
    (hslash : '/' ∉ base.host.toList) (hstar : startsWith base.host "*." = false)
    (h : ScopeRule.modelValidate
      { host := base.host, schemes := [base.scheme], ports := ports
        pathPrefix := directoryOf base.path } = .ok rule) : RuleFor base rule := by
  have hstrip : strip base.host = base.host := by
    have hchars : stripChars isSpace base.host.toList = base.host.toList :=
      stripChars_eq_self (fun c hc ↦ hblank c (List.mem_of_mem_head? hc))
        fun c hc ↦ hblank c (List.mem_of_mem_getLast? hc)
    rw [strip, hchars, String.ofList_toList]
  have hname : lowerHost base.host = siteHost base.host := by rw [lowerHost, hstrip, siteHost]
  have hwild : startsWith (siteHost base.host) "*." = false := by
    by_contra hwild
    rw [wildcard_of_siteHost (by simpa using hwild)] at hstar
    cases hstar
  have hdump := dump_modelValidate h
  simp only [ScopeRule.dump, RawScopeRule.mk.injEq, hname, List.map_cons, List.map_nil, hscheme,
    Option.map_none] at hdump
  obtain ⟨hkind, hhost, hschemes, hrulePorts, hprefix, hregex, hmethods⟩ := hdump
  refine ⟨hkind, hhost, hschemes, hrulePorts ▸ hports, hprefix, hregex, hmethods, ?_, ?_⟩
  · rw [hhost]
    exact slash_notMem_siteHost hslash
  · rw [hhost, hwild]

/-- The default rules are one rule for each base URL. -/
theorem forall₂_defaultScopeRulesFor {bases : List String} {rules : List ScopeRule}
    (hbases : ∀ base ∈ bases, WebBase base) (h : defaultScopeRulesFor bases = .ok rules) :
    List.Forall₂ (fun base rule ↦ ∃ p, placeOf base = some p ∧ RuleFor p rule) bases rules := by
  unfold defaultScopeRulesFor at h
  refine Exists.elim (ExceptList.forall₂_of_foldlM_append
    (R := fun base rule ↦ ∃ p, placeOf base = some p ∧ RuleFor p rule) ?_ h) ?_
  swap
  · rintro new ⟨rfl, hnew⟩
    exact hnew
  intro base hmem rules rules' hstep
  obtain ⟨parts, host, hsplit, hhost, hscheme, hblank, hstar⟩ := hbases base hmem
  have hlower : lower parts.scheme = parts.scheme := by
    rcases hscheme with h | h <;> rw [h] <;> decide
  have hne : parts.scheme ≠ "" := by
    rcases hscheme with h | h <;> rw [h] <;> decide
  simp only [hsplit, hhost, if_neg hne, hlower] at hstep
  obtain ⟨explicit, hport, hstep⟩ := ExceptList.bind_eq_ok_iff.mp hstep
  obtain ⟨rule, hrule, hstep⟩ := ExceptList.bind_eq_ok_iff.mp hstep
  have hexplicit : parts.port = some explicit := by
    cases hparts : parts.port with
    | none => simp [hparts] at hport
    | some port => simpa [hparts] using hport
  refine ⟨rule, (Except.ok.inj hstep).symm, ⟨parts.scheme, host,
    portOrDefault parts.scheme explicit, parts.path⟩, ?_, ?_⟩
  · simp [placeOf, hsplit, hhost, hexplicit, hlower]
  · exact ruleFor_of_modelValidate hlower (portMatches_default hscheme explicit) hblank
      (slash_notMem_hostname hsplit hhost) hstar hrule
/-! ## The scope of the default rules -/

variable {bases : List String} {rules : List ScopeRule}

theorem hostMatches_of_ruleFor {base : Place} {rule : ScopeRule} (h : RuleFor base rule)
    (host : String) : hostMatches rule.host (siteHost host) = true ↔ SameHost host base.host := by
  rw [hostMatches_iff h.named.1 h.named.2, h.host, SameHost]
  refine or_congr eq_comm (exists_congr fun addr ↦ and_comm)

/-- A rule for a base lets the places below it through. -/
theorem matches_iff_below {base place : Place} {rule : ScopeRule} (h : RuleFor base rule)
    (method : Option String) :
    (originMatches rule ⟨place.scheme, siteHost place.host, place.port,
        effectivePath place.path, upperMethod method⟩ = true ∧
      startsWith (effectivePath place.path) rule.pathPrefix = true) ↔ Below base place := by
  have hscheme : rule.schemes.contains place.scheme = true ↔ place.scheme = base.scheme := by
    simp [h.schemes]
  simp only [originMatches, Bool.and_eq_true, hscheme, hostMatches_of_ruleFor h, h.pathPrefix]
  constructor
  · rintro ⟨⟨⟨hs, hh⟩, hp⟩, hpath⟩
    rw [hs] at hp
    exact ⟨hs, hh, (h.ports _).mp hp, hpath⟩
  · rintro ⟨hs, hh, hp, hpath⟩
    refine ⟨⟨⟨hs, hh⟩, ?_⟩, hpath⟩
    rw [hs]
    exact (h.ports _).mpr hp

theorem exists_base_of_rule
    (hrules : List.Forall₂ (fun base rule ↦ ∃ p, placeOf base = some p ∧ RuleFor p rule) bases rules)
    {rule : ScopeRule} (hmem : rule ∈ rules) :
    ∃ base ∈ bases, ∃ p, placeOf base = some p ∧ RuleFor p rule :=
  ExceptList.exists_of_forall₂ hrules.flip hmem

theorem webBase_place {base : String} {p : Place} (hbase : WebBase base)
    (hp : placeOf base = some p) : p.scheme ≠ "" ∧ p.port ≠ 0 := by
  obtain ⟨parts, host, hsplit, hhost, hscheme, -⟩ := hbase
  simp only [placeOf, hsplit, hhost, Option.bind_eq_bind, Option.bind_some] at hp
  obtain ⟨explicit, -, hp⟩ := Option.bind_eq_some_iff.mp hp
  obtain rfl := Option.some.inj hp
  have hlower : lower parts.scheme = "http" ∨ lower parts.scheme = "https" := by
    rcases hscheme with h | h
    · exact Or.inl (by rw [h]; decide)
    · exact Or.inr (by rw [h]; decide)
  have hdefault : (defaultPort (lower parts.scheme)).getD 0 ≠ 0 := by
    rcases hlower with h | h <;> simp [h, defaultPort]
  constructor
  · rcases hlower with h | h <;> simp [h]
  · cases explicit with
    | none => exact hdefault
    | some port =>
        by_cases hport : port = 0
        · simpa [portOrDefault, hport] using hdefault
        · simp [portOrDefault, hport]

theorem startsWith_directoryOf {path : String} (h : startsWith (directoryOf path) "/" = true) :
    startsWith (effectivePath path) (directoryOf path) = true := by
  unfold directoryOf at h ⊢
  dsimp only at h ⊢
  split_ifs at h ⊢ with hslash
  · have hne : path ≠ "" := by
      rintro rfl
      simp at hslash
    rw [effectivePath, if_neg hne, startsWith_iff, String.toList_ofList]
    exact List.take_prefix _ _
  · have hempty : path = "" := by
      by_contra hne
      obtain ⟨c, rest, hpath⟩ := List.exists_cons_of_ne_nil fun h ↦ hne (String.toList_injective h)
      have hc : '/' = c := by simpa [hpath] using h
      simp only [hpath, ← hc, List.contains_cons, beq_self_eq_true, Bool.true_or,
        not_true_eq_false] at hslash
    simp [hempty, effectivePath]

/-- A private host that a rule other than a wildcard matches opens the gate. -/
theorem gateOpen_of_hostMatches {authorized : Bool} {rule : ScopeRule} {v : ParsedUrl}
    (hrule : rule ∈ rules) (hstar : startsWith rule.host "*." = false)
    (hmatch : hostMatches rule.host v.host = true) :
    gateOpen (.fromRules rules authorized) v = true := by
  by_cases hpriv : isPrivateLiteral v.host = true
  · have hoptin : ruleAllowsPrivate rule = true := by
      by_contra hoptin
      rw [wildcard_of_hostMatches hmatch hpriv (by simpa using hoptin)] at hstar
      cases hstar
    have hany : rules.any ruleAllowsPrivate = true := List.any_eq_true.mpr ⟨rule, hrule, hoptin⟩
    simp [gateOpen, ScopeEngine.fromRules, hany]
  · simp [gateOpen, hpriv]

/-- The default rules of an authorized target allow exactly what lies in the
directory of a base URL, which each base URL does itself. -/
theorem allows_defaultRules_iff (re : RegexEngine String) (target : Target) (now : Time)
    (hauth : target.isAuthorized now = true) (hbases : ∀ base ∈ target.baseUrls, WebBase base)
    (hdefault : defaultScopeRulesFor target.baseUrls = .ok target.scopeRules)
    (method : Option String) :
    (∀ url, (ScopeEngine.ofTarget target now).Allows re url method ↔
      ∃ base ∈ target.baseUrls, BelowUrl base url) ∧
    ∀ base ∈ target.baseUrls, (ScopeEngine.ofTarget target now).Allows re base method := by
  have hrules := forall₂_defaultScopeRulesFor hbases hdefault
  have hfree : RegexFree target.scopeRules := by
    intro rule hrule
    obtain ⟨_, _, _, _, hfor⟩ := exists_base_of_rule hrules hrule
    exact hfor.pathRegex
  have hexclude : ∀ v, ¬ Covered .exclude target.scopeRules v := by
    rintro v ⟨rule, hrule, hkind, -⟩
    obtain ⟨_, _, _, _, hfor⟩ := exists_base_of_rule hrules hrule
    rw [hfor.kind] at hkind
    cases hkind
  have hiff : ∀ url, (ScopeEngine.ofTarget target now).Allows re url method ↔
      ∃ base ∈ target.baseUrls, BelowUrl base url := by
    intro url
    simp only [allows_iff, ScopeEngine.ofTarget, ScopeEngine.fromRules, hauth, true_and,
      rulesCover_iff_of_regexFree hfree]
    constructor
    · rintro ⟨v, hparse, -, -, rule, hrule, -, horigin, hpath, -⟩
      obtain ⟨place, hplace, -, -, rfl⟩ := parse_eq_some_iff.mp hparse
      obtain ⟨base, hbase, b, hb, hfor⟩ := exists_base_of_rule hrules hrule
      exact ⟨base, hbase, b, place, hb, hplace, (matches_iff_below hfor method).mp ⟨horigin, hpath⟩⟩
    · rintro ⟨base, hbase, b, place, hb, hplace, hbelow⟩
      obtain ⟨rule, hrule, _, hb', hfor⟩ := ExceptList.exists_of_forall₂ hrules hbase
      obtain rfl := Option.some.inj (hb.symm.trans hb')
      obtain ⟨hscheme, hport⟩ := webBase_place (hbases base hbase) hb
      obtain ⟨horigin, hpath⟩ := (matches_iff_below hfor method).mpr hbelow
      refine ⟨_, parse_eq_some_iff.mpr ⟨place, hplace, ?_, ?_, rfl⟩, ?_, hexclude _,
        rule, hrule, hfor.kind, horigin, hpath, ?_⟩
      · rw [hbelow.scheme]
        exact hscheme
      · rw [hbelow.port]
        exact hport
      · exact gateOpen_of_hostMatches hrule hfor.named.2
          ((hostMatches_of_ruleFor hfor _).mpr hbelow.host)
      · simp [methodMatches, hfor.methods]
  refine ⟨hiff, fun base hbase ↦ (hiff base).mpr ⟨base, hbase, ?_⟩⟩
  obtain ⟨rule, -, b, hb, hfor⟩ := ExceptList.exists_of_forall₂ hrules hbase
  have hdir := startsWith_directoryOf (hfor.pathPrefix ▸ rule.pathPrefix_ok)
  exact ⟨b, b, hb, hb, rfl, sameHost_refl _, rfl, hdir⟩

/-! ## A portal on the loopback address -/

theorem portalHost_ok : ∃ v : String, 1 ≤ v.length ∧ v.length ≤ 253 ∧ lowerHost v = "127.0.0.1" :=
  ⟨"127.0.0.1", by decide⟩

theorem portalPath_ok : startsWith "/portal/" "/" = true := by decide

theorem portalSchemes_ok : ∀ s ∈ ["http"], s ∈ supportedSchemes := by simp [supportedSchemes]

theorem portalName_ok : 1 ≤ "portal".length ∧ "portal".length ≤ 200 := by decide

theorem portalRate_ok : (0 : ℚ) < 10 ∧ (10 : ℚ) ≤ 1000 := by norm_num

theorem portalConcurrency_ok : 1 ≤ 4 ∧ 4 ≤ 256 := by decide

theorem portalVerifier_ne : "u" ≠ "" := by decide

def portalRule : ScopeRule where
  kind := .include_
  host := "127.0.0.1"
  schemes := ["http"]
  ports := some [8000]
  pathPrefix := "/portal/"
  pathRegex := none
  methods := none
  host_ok := portalHost_ok
  schemes_ok := portalSchemes_ok
  pathPrefix_ok := portalPath_ok
  methods_ok := upper_of_no_methods

def portalTarget : Target where
  id := "p"
  tenantId := "t"
  name := "portal"
  baseUrls := ["http://127.0.0.1:8000/portal/index"]
  kind := .unknown
  scopeRules := [portalRule]
  rateLimits := ⟨10, 4, portalRate_ok, portalConcurrency_ok⟩
  authorization := some
    { method := .internalAsset, verifiedAt := 0, verifiedBy := "u", verifiedBy_ne := portalVerifier_ne }
  createdAt := 0
  name_ok := portalName_ok
  baseUrls_ne := List.cons_ne_nil _ _

theorem webBase_portal : ∀ base ∈ portalTarget.baseUrls, WebBase base := by
  intro base hbase
  obtain rfl := List.mem_singleton.mp hbase
  exact ⟨⟨"http", "127.0.0.1:8000", "/portal/index", "", ""⟩, "127.0.0.1", by decide +kernel,
    by decide +kernel, Or.inl rfl, by decide, by decide⟩

theorem allows_defaultRules_iff_portal :
    ((ScopeEngine.ofTarget portalTarget 0).Allows (fun _ ↦ none) "http://127.0.0.1:8000/portal/a" none ↔
      ∃ base ∈ portalTarget.baseUrls, BelowUrl base "http://127.0.0.1:8000/portal/a") ∧
    (ScopeEngine.ofTarget portalTarget 0).Allows (fun _ ↦ none)
      "http://127.0.0.1:8000/portal/index" none := by
  have h := allows_defaultRules_iff (fun _ ↦ none) portalTarget 0 rfl webBase_portal rfl none
  exact ⟨h.1 _, h.2 _ List.mem_cons_self⟩

end Vantage.Scope
