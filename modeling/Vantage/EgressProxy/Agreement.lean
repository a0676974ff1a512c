import Vantage.EgressProxy.Scope

/-!
# The proxy against the scope engine

The two engines read the same rules. This file gives conditions on a rule
list and a URL under which they decide alike, and inputs, one for each
condition, on which they do not.
-/

namespace Vantage.EgressProxy

open Text IpAddress

variable {pyRe : Scope.RegexEngine String} {goRe : Scope.RegexEngine (List UInt8)}
  {rules : List Vantage.ScopeRule} {rule : Vantage.ScopeRule} {goRule : ScopeRule} {url : WebUrl}
  {method : Option String} {authorized : Bool} {path : List UInt8}

/-! ## Rules as JSON -/

def kindText : ScopeRuleKind → String
  | .include_ => "include"
  | .exclude => "exclude"

/-- `json.Unmarshal` fails on a number that does not fit an `int`. -/
def fitsInt (n : ℤ) : Bool := -2 ^ 63 ≤ n && n < 2 ^ 63

/-- A rule handed over as its `model_dump` JSON. -/
def loadRule (rule : Vantage.ScopeRule) : Option ScopeRule :=
  if (rule.ports.getD []).all fitsInt then
    some { kind := kindText rule.kind, host := rule.host, schemes := rule.schemes
           ports := rule.ports, pathPrefix := rule.pathPrefix, pathRegex := rule.pathRegex
           methods := rule.methods }
  else none

/-- `loadRules`; without rules the proxy does not start. -/
def loadRules (rules : List Vantage.ScopeRule) : Option (List ScopeRule) := rules.mapM loadRule

def proxyAllows (goRe : Scope.RegexEngine (List UInt8)) (rules : List Vantage.ScopeRule)
    (authorized : Bool) (url : WebUrl) (method : Option String) : Bool :=
  match loadRules rules with
  | none => false
  | some loaded => (newScopeEngine loaded authorized).allows goRe url (method.getD "")

/-- Both engines allow the request or neither does. -/
def DecideAlike (pyRe : Scope.RegexEngine String) (goRe : Scope.RegexEngine (List UInt8))
    (rules : List Vantage.ScopeRule) (authorized : Bool) (url : WebUrl)
    (method : Option String) : Prop :=
  proxyAllows goRe rules authorized url method = true ↔
    (Scope.ScopeEngine.fromRules rules authorized).Allows pyRe url.text method

/-- The two regular expression engines agree on the patterns of the rules. -/
def RegexAgree (pyRe : Scope.RegexEngine String) (goRe : Scope.RegexEngine (List UInt8))
    (rules : List Vantage.ScopeRule) : Prop :=
  ∀ rule ∈ rules, ∀ p ∈ rule.pathRegex,
    (goRe p).map (fun search (s : String) ↦ search (Utf8.encode s.toList)) = pyRe p

/-! ## Conditions for agreement -/

/-- The tests of a rule come out alike: the conditions follow the order of the
tests, each under the tests before it. -/
structure RuleAlike (goRe : Scope.RegexEngine (List UInt8)) (v : Scope.ParsedUrl)
    (path : List UInt8) (rule : Vantage.ScopeRule) : Prop where
  ports_fit : ∀ ports ∈ rule.ports, ∀ n ∈ ports, fitsInt n = true
  host : hostMatches rule.host v.host = Scope.hostMatches rule.host v.host
  schemes : Scope.hostMatches rule.host v.host = true → rule.schemes = [] →
    v.scheme ∉ ["https", "http"]
  path_prefix : Scope.originMatches rule v = true →
    prefixMatches rule.pathPrefix (orRoot path) = startsWith v.path rule.pathPrefix
  pattern : Scope.originMatches rule v = true → startsWith v.path rule.pathPrefix = true →
    ∀ p ∈ rule.pathRegex, ∃ search, goRe p = some search ∧
      search (orRoot path) = search (Utf8.encode v.path.toList)

/-- The gate of the proxy for private literals. -/
def proxyGate (rules : List Vantage.ScopeRule) (host : String) : Bool :=
  !isPrivateLiteral host || rules.any fun rule ↦
    isPrivateLiteral rule.host || rule.host.toList.contains '/'

/-- What a rule list and a request must satisfy for the two engines to agree. -/
structure Alike (goRe : Scope.RegexEngine (List UInt8)) (rules : List Vantage.ScopeRule)
    (url : WebUrl) (method : Option String) : Prop where
  port : ∀ digits ∈ url.port, digits = [] ∨ decimal digits ≠ 0
  gate : ∀ v, Scope.parse url.text method = some v →
    proxyGate rules v.host = Scope.gateOpen (.fromRules rules true) v
  rules : ∀ v, Scope.parse url.text method = some v →
    Scope.gateOpen (.fromRules rules true) v = true →
      ∃ path, decodedPath url.path = some path ∧ ∀ rule ∈ rules, RuleAlike goRe v path rule

/-! ## Parsing -/

theorem urlPort_eq_pythonPort (h : ∀ digits ∈ url.port, digits = [] ∨ decimal digits ≠ 0) :
    urlPort (lower url.scheme) url = url.pythonPort := by
  unfold urlPort WebUrl.pythonPort lookupPort
  cases hport : url.port with
  | none => rfl
  | some digits =>
      cases digits with
      | nil => rfl
      | cons d digits =>
          have hne : decimal (d :: digits) ≠ 0 := by
            rcases h (d :: digits) (by simp [hport]) with h | h
            · simp at h
            · exact h
          simp only [Scope.portOrDefault, if_neg hne]

/-- The parsed URL of the proxy for a parsed URL of the Python engine. -/
def goParsed (path : List UInt8) (method : Option String) (v : Scope.ParsedUrl) : ParsedUrl :=
  ⟨v.scheme, v.host, v.port, orRoot path, upper (method.getD "")⟩

theorem parseUrl_eq (hport : ∀ digits ∈ url.port, digits = [] ∨ decimal digits ≠ 0)
    (hpath : decodedPath url.path = some path) :
    parseUrl url (method.getD "") = (Scope.parse url.text method).map (goParsed path method) := by
  unfold parseUrl
  simp only [url.parse_text, hpath, urlPort_eq_pythonPort hport, Option.bind_eq_bind,
    Option.bind_some]
  cases url.pythonPort with
  | none => rfl
  | some port =>
      simp only [Option.bind_some]
      split_ifs <;> rfl

theorem parse_spec {v : Scope.ParsedUrl} (h : Scope.parse url.text method = some v) :
    v.host = url.hostname ∧ v.port ≠ 0 ∧ v.path = Scope.effectivePath url.path ∧
      v.method = Scope.upperMethod method := by
  rw [url.parse_text] at h
  obtain ⟨port, -, h⟩ := Option.bind_eq_some_iff.mp h
  split_ifs at h with hzero
  obtain rfl := Option.some.inj h
  exact ⟨rfl, hzero, rfl, rfl⟩

/-- A path that does not decode is refused. -/
theorem parseUrl_eq_none (hpath : decodedPath url.path = none) (method : String) :
    parseUrl url method = none := by
  simp [parseUrl, hpath]

/-! ## One rule -/

theorem upper_eq_empty_iff {s : String} : upper s = "" ↔ s = "" := by
  rw [← String.toList_inj, ← String.toList_inj]
  simp

theorem methodMatches_eq (methods : Option (List String)) (method : Option String) :
    methodMatches methods (upper (method.getD "")) =
      Scope.methodMatches methods (Scope.upperMethod method) := by
  have hempty : upper "" = "" := by decide
  unfold methodMatches Scope.methodMatches Scope.upperMethod
  cases methods with
  | none => cases method <;> rfl
  | some ms =>
      cases method with
      | none => simp [hempty]
      | some m =>
          by_cases hm : m = ""
          · simp [hm, hempty]
          · have hupper : (upper m == "") = false := by
              simpa [upper_eq_empty_iff] using hm
            simp [hm, hupper]

theorem loadRule_eq (h : ∀ ports ∈ rule.ports, ∀ n ∈ ports, fitsInt n = true) :
    ∃ loaded, loadRule rule = some loaded ∧ loaded.kind = kindText rule.kind ∧
      loaded.host = rule.host ∧ loaded.schemes = rule.schemes ∧ loaded.ports = rule.ports ∧
        loaded.pathPrefix = rule.pathPrefix ∧ loaded.pathRegex = rule.pathRegex ∧
          loaded.methods = rule.methods := by
  have hall : (rule.ports.getD []).all fitsInt = true := by
    cases hports : rule.ports with
    | none => rfl
    | some ports => simpa using h ports (by simp [hports])
  simp [loadRule, hall]

theorem isExclude_of_kindText {loaded : ScopeRule} (h : loaded.kind = kindText rule.kind) :
    isExclude loaded = decide (rule.kind = .exclude) := by
  unfold isExclude
  rw [h]
  cases rule.kind <;> decide

/-- The tests that come before the path agree. -/
theorem originMatches_eq (method : Option String) {loaded : ScopeRule} {v : Scope.ParsedUrl}
    (hrule : RuleAlike goRe v path rule) (hload : loadRule rule = some loaded) (hport : v.port ≠ 0) :
    originMatches loaded (goParsed path method v) = Scope.originMatches rule v := by
  obtain ⟨loaded', hload', -, hhost, hschemes, hports, -⟩ := loadRule_eq hrule.ports_fit
  obtain rfl := Option.some.inj (hload.symm.trans hload')
  have hmatch : hostMatches loaded.host v.host = Scope.hostMatches rule.host v.host := by
    rw [hhost, hrule.host]
  unfold originMatches Scope.originMatches
  simp only [goParsed, hmatch, hschemes, hports]
  cases hm : Scope.hostMatches rule.host v.host with
  | false => simp
  | true =>
      have hsch : (defaultSchemes rule.schemes).contains v.scheme =
          rule.schemes.contains v.scheme := by
        by_cases hnil : rule.schemes = []
        · simpa [defaultSchemes, hnil] using hrule.schemes hm hnil
        · have hne : rule.schemes.isEmpty = false := by simpa using hnil
          simp [defaultSchemes, hne]
      rw [hsch]
      congr 1
      unfold Scope.portMatches
      cases rule.ports with
      | some ports => rfl
      | none =>
          cases hdefault : Scope.defaultPort v.scheme with
          | none => simpa using hport
          | some n => simp [eq_comm]

/-- On a rule that reads alike, the test of the proxy is that of the Python engine. -/
theorem ruleMatches_eq {loaded : ScopeRule} {v : Scope.ParsedUrl}
    (hrule : RuleAlike goRe v path rule)
    (hregex : ∀ p ∈ rule.pathRegex,
      (goRe p).map (fun search (s : String) ↦ search (Utf8.encode s.toList)) = pyRe p)
    (hload : loadRule rule = some loaded) (hparse : Scope.parse url.text method = some v) :
    Scope.ruleMatches pyRe rule v = .ok (ruleMatches goRe loaded (goParsed path method v)) := by
  obtain ⟨-, hport, -, hmethod⟩ := parse_spec hparse
  have horigin := originMatches_eq method hrule hload hport
  obtain ⟨loaded', hload', -, -, -, -, hpathPrefix, hpattern, hmethods⟩ := loadRule_eq hrule.ports_fit
  obtain rfl := Option.some.inj (hload.symm.trans hload')
  have hmeth : methodMatches loaded.methods (upper (method.getD "")) =
      Scope.methodMatches rule.methods v.method := by
    rw [hmethods, hmethod, methodMatches_eq]
  unfold Scope.ruleMatches ruleMatches
  rw [horigin]
  cases hor : Scope.originMatches rule v with
  | false => simp
  | true =>
      have hpre : prefixMatches loaded.pathPrefix (orRoot path) =
          startsWith v.path rule.pathPrefix := by
        rw [hpathPrefix, hrule.path_prefix hor]
      simp only [Bool.not_true, Bool.false_eq_true, if_false, Bool.true_and, pathMatches, goParsed,
        hpre, hmeth]
      cases hstart : startsWith v.path rule.pathPrefix with
      | false => rfl
      | true =>
          have hre : Scope.regexMatches pyRe rule.pathRegex v.path =
              .ok (regexMatches goRe loaded.pathRegex (orRoot path)) := by
            unfold Scope.regexMatches regexMatches
            rw [hpattern]
            cases hp : rule.pathRegex with
            | none => rfl
            | some p =>
                obtain ⟨search, hsearch, heq⟩ := hrule.pattern hor hstart p (by simp [hp])
                have hpy := hregex p (by simp [hp])
                rw [hsearch, Option.map_some] at hpy
                simp only [← hpy, hsearch, heq]
          rw [hre]
          cases regexMatches goRe loaded.pathRegex (orRoot path) <;> rfl

/-! ## Rule lists -/

theorem forall₂_of_loadRules {loaded : List ScopeRule} (h : loadRules rules = some loaded) :
    List.Forall₂ (fun rule goRule ↦ loadRule rule = some goRule) rules loaded := by
  unfold loadRules at h
  induction rules generalizing loaded with
  | nil =>
      obtain rfl : [] = loaded := by simpa using h
      exact .nil
  | cons rule rules ih =>
      simp only [List.mapM_cons, Option.pure_def, Option.bind_eq_bind, Option.bind_eq_some_iff,
        Option.some.injEq] at h
      obtain ⟨goRule, hrule, rest, hrest, rfl⟩ := h
      exact .cons hrule (ih hrest)

theorem exists_loadRules
    (h : ∀ rule ∈ rules, ∀ ports ∈ rule.ports, ∀ n ∈ ports, fitsInt n = true) :
    ∃ loaded, loadRules rules = some loaded := by
  unfold loadRules
  induction rules with
  | nil => exact ⟨[], rfl⟩
  | cons rule rules ih =>
      obtain ⟨loaded, hload⟩ := ih fun r hr ↦ h r (List.mem_cons_of_mem _ hr)
      obtain ⟨goRule, hrule, -⟩ := loadRule_eq (h rule (by simp))
      exact ⟨goRule :: loaded, by simp [hrule, hload]⟩

/-- The fields of a loaded rule that the decision looks at first. -/
theorem loadRule_spec (h : loadRule rule = some goRule) :
    goRule.kind = kindText rule.kind ∧ goRule.host = rule.host := by
  unfold loadRule at h
  split_ifs at h
  obtain rfl := Option.some.inj h
  exact ⟨rfl, rfl⟩

section RuleLists

variable {loaded : List ScopeRule} {v : Scope.ParsedUrl}

theorem gateOpen_eq_proxyGate
    (hall : List.Forall₂ (fun rule goRule ↦ loadRule rule = some goRule) rules loaded) :
    gateOpen (newScopeEngine loaded true) (goParsed path method v) = proxyGate rules v.host := by
  have hany : loaded.any ruleAllowsPrivate = rules.any fun rule ↦
      isPrivateLiteral rule.host || rule.host.toList.contains '/' := by
    induction hall with
    | nil => rfl
    | @cons rule goRule rules loaded hload _ ih =>
        simp only [List.any_cons, ih, ruleAllowsPrivate, (loadRule_spec hload).2]
  simp only [gateOpen, newScopeEngine, goParsed, hany, proxyGate]

/-- The scan of the Python engine for one kind finds what the proxy finds. -/
theorem scan_eq (hregex : RegexAgree pyRe goRe rules)
    (hall : List.Forall₂ (fun rule goRule ↦ loadRule rule = some goRule) rules loaded)
    (h : ∀ rule ∈ rules, RuleAlike goRe v path rule)
    (hparse : Scope.parse url.text method = some v) (kind : ScopeRuleKind) :
    FirstHit.scan (Scope.kindMatches pyRe kind v) rules =
      .ok (loaded.any fun r ↦ (isExclude r == decide (kind = .exclude)) &&
        ruleMatches goRe r (goParsed path method v)) := by
  induction hall with
  | nil => rfl
  | @cons rule goRule rules loaded hload _ ih =>
      have hrest := ih (fun r hr ↦ hregex r (List.mem_cons_of_mem _ hr))
        (fun r hr ↦ h r (List.mem_cons_of_mem _ hr))
      have hmatch := ruleMatches_eq (h rule (by simp)) (hregex rule (by simp)) hload hparse
      have hkind := isExclude_of_kindText (loadRule_spec hload).1
      have htest : Scope.kindMatches pyRe kind v rule =
          .ok ((isExclude goRule == decide (kind = .exclude)) &&
            ruleMatches goRe goRule (goParsed path method v)) := by
        unfold Scope.kindMatches
        rw [hmatch, hkind]
        cases rule.kind <;> cases kind <;> rfl
      exact FirstHit.scan_cons_of_eq_ok htest hrest

theorem rulesCover_iff (hregex : RegexAgree pyRe goRe rules)
    (hall : List.Forall₂ (fun rule goRule ↦ loadRule rule = some goRule) rules loaded)
    (h : ∀ rule ∈ rules, RuleAlike goRe v path rule)
    (hparse : Scope.parse url.text method = some v) :
    RulesCover goRe loaded (goParsed path method v) ↔ Scope.RulesCover pyRe rules v := by
  rw [← resolve_eq_true_iff, Scope.RulesCover, ← FirstHit.scan_eq_false_iff,
    scan_eq hregex hall h hparse, scan_eq hregex hall h hparse]
  simp [resolve]

end RuleLists

/-! ## Plain inputs -/

theorem unescapePath_of_plain {l : List Char} (h : '%' ∉ l) :
    unescapePath l = some (Utf8.encode l) := by
  induction l with
  | nil => rfl
  | cons c l ih =>
      have hc : c ≠ '%' := fun hc ↦ h (by simp [hc])
      have hrest := ih fun hl ↦ h (List.mem_cons_of_mem c hl)
      unfold unescapePath
      split
      · rename_i heq
        simp at heq
      · rename_i heq
        exact (hc (List.cons.inj heq).1).elim
      · rename_i heq
        obtain ⟨rfl, rfl⟩ := List.cons.inj heq
        rw [if_neg hc, hrest]
        rfl

/-- A path without escapes and control characters is decoded to its own bytes. -/
theorem decodedPath_of_plain {path : String}
    (h : ∀ c ∈ path.toList, c ≠ '%' ∧ isControl c = false) :
    decodedPath path = some (Utf8.encode path.toList) := by
  have hcontrol : path.toList.any isControl = false := by
    simpa using fun c hc ↦ (h c hc).2
  rw [decodedPath, hcontrol]
  exact unescapePath_of_plain fun hc ↦ (h _ hc).1 rfl

theorem orRoot_encode (path : String) :
    orRoot (Utf8.encode path.toList) = Utf8.encode (Scope.effectivePath path).toList := by
  unfold orRoot Scope.effectivePath
  by_cases hempty : path = ""
  · simp [hempty]
  · rw [if_neg hempty, if_neg]
    cases hl : path.toList with
    | nil => exact (hempty (by simpa using hl)).elim
    | cons c l => simp

/-- On encoded text the prefix test of the proxy is that of the Python engine. -/
theorem prefixMatches_encode (rule : Vantage.ScopeRule) (path : String) :
    prefixMatches rule.pathPrefix (Utf8.encode path.toList) = startsWith path rule.pathPrefix := by
  have hne : rule.pathPrefix ≠ "" := by
    intro h
    have hok := rule.pathPrefix_ok
    rw [h] at hok
    revert hok
    decide
  rw [prefixMatches, if_neg hne, Bool.eq_iff_iff, startsWith_iff, List.isPrefixOf_iff_prefix,
    Utf8.encode_prefix_iff]

/-- The blocks of IPv4 addresses that the two engines class differently. -/
def partingBlocks : List (BitVec 32 × ℕ) :=
  [(0x00000000, 8), (0xc0000000, 24), (0xc0000200, 24), (0xc6120000, 15), (0xc6336400, 24),
    (0xcb007100, 24), (0xf0000000, 4)]

/-- On dotted addresses outside those blocks the two classifications agree. -/
theorem isPrivateLiteral_of_v4 {host : String} {ip : BitVec 32}
    (hip : parseV4 host.toList = some ip) (hout : inBlocks partingBlocks ip = false) :
    isPrivateLiteral host = Scope.isPrivateLiteral host := by
  simp only [inBlocks, partingBlocks, List.any_cons, List.any_nil, Bool.or_false,
    Bool.or_eq_false_iff] at hout
  obtain ⟨hzero, hietf, htest1, hbench, htest2, htest3, hreserved⟩ := hout
  have hne : (ip == 0) = false := by
    rw [beq_eq_false_iff_ne]
    rintro rfl
    revert hzero
    decide
  have h170 := inBlock_eq_false_of_inBlock 0xc00000aa 31 (by decide) (by decide)
    (by decide) hietf
  have h9 := inBlock_eq_false_of_inBlock 0xc0000009 32 (by decide) (by decide)
    (by decide) hietf
  have h10 := inBlock_eq_false_of_inBlock 0xc000000a 32 (by decide) (by decide)
    (by decide) hietf
  have hbroadcast := inBlock_eq_false_of_inBlock 0xffffffff 32 (by decide)
    (by decide) (by decide) hreserved
  have hlocal : inBlock 0xe0000000 24 ip = true → inBlock 0xe0000000 4 ip = true :=
    inBlock_of_inBlock (by decide) (by decide) rfl
  have hzero4 : (NetIp.ofV4 ip == NetIp.ofV4 0) = false := by
    simpa [NetIp.ofV4_inj] using hne
  have hzero6 : (NetIp.ofV4 ip == 0) = false := by
    simpa using NetIp.ofV4_ne_zero ip
  simp only [isPrivateLiteral, Scope.isPrivateLiteral, NetIp.parseIP, ipAddress, hip,
    NetIp.isLoopback, NetIp.isPrivate, NetIp.isLinkLocalUnicast, NetIp.isLinkLocalMulticast,
    NetIp.isMulticast, NetIp.isUnspecified, NetIp.to4_ofV4, Addr.isPrivate, Addr.isLoopback,
    Addr.isLinkLocal, Addr.isReserved, Addr.isMulticast, Addr.isUnspecified, isPrivate4,
    privateBlocks4, privateExceptions4, inBlocks, List.any_cons, List.any_nil, hzero, hietf, htest1,
    hbench, htest2, htest3, hreserved, hne, h170, h9, h10, hbroadcast, hzero4, hzero6,
    Bool.or_false, Bool.false_or, Bool.not_false, Bool.and_true]
  -- what is left is the same disjunction of seven blocks on both sides
  revert hlocal
  generalize inBlock 0x7f000000 8 ip = loopback, inBlock 0x0a000000 8 ip = ten,
    inBlock 0xac100000 12 ip = b172, inBlock 0xc0a80000 16 ip = b192,
    inBlock 0xa9fe0000 16 ip = linkLocal, inBlock 0xe0000000 24 ip = localMulticast,
    inBlock 0xe0000000 4 ip = multicast
  decide +revert

/-- Neither library reads the host as an address. -/
def IsName (host : String) : Prop := ipAddress host = none ∧ NetIp.parseIP host = none

theorem IsName.isPrivateLiteral_eq {host : String} (h : IsName host) :
    isPrivateLiteral host = Scope.isPrivateLiteral host := by
  simp [isPrivateLiteral, Scope.isPrivateLiteral, h.1, h.2]

/-- A name is compared as text. -/
theorem IsName.hostMatches_eq {host : String} (h : IsName host) (ruleHost : String) :
    hostMatches ruleHost host = Scope.hostMatches ruleHost host := by
  simp [hostMatches, Scope.hostMatches, h.1, h.2]

/-- A dotted address outside the blocks that are classed differently. -/
def IsPlainV4 (host : String) : Prop :=
  ∃ ip, parseV4 host.toList = some ip ∧ inBlocks partingBlocks ip = false

theorem IsPlainV4.isPrivateLiteral_eq {host : String} (h : IsPlainV4 host) :
    isPrivateLiteral host = Scope.isPrivateLiteral host := by
  obtain ⟨ip, hip, hout⟩ := h
  exact isPrivateLiteral_of_v4 hip hout

theorem IsPlainV4.hostMatches_eq {ruleHost host : String} (h : IsPlainV4 host)
    (hrule : IsName ruleHost ∨ IsPlainV4 ruleHost) (hslash : ruleHost.toList.contains '/' = false) :
    hostMatches ruleHost host = Scope.hostMatches ruleHost host := by
  obtain ⟨ip, hip, -⟩ := h
  have hpy : ipAddress host = some (.v4 ip) := by simp [ipAddress, hip]
  have hgo : NetIp.parseIP host = some (NetIp.ofV4 ip) := by simp [NetIp.parseIP, hip]
  rcases hrule with ⟨hpyRule, hgoRule⟩ | ⟨ruleIp, hruleIp, -⟩
  · simp only [hostMatches, Scope.hostMatches, hpy, hgo, hslash, hpyRule, hgoRule,
      Bool.false_eq_true, if_false]
  · have hpyRule : ipAddress ruleHost = some (.v4 ruleIp) := by simp [ipAddress, hruleIp]
    have hgoRule : NetIp.parseIP ruleHost = some (NetIp.ofV4 ruleIp) := by
      simp [NetIp.parseIP, hruleIp]
    have heq : (NetIp.ofV4 ruleIp == NetIp.ofV4 ip) = (Addr.v4 ip == Addr.v4 ruleIp) := by
      rw [Bool.eq_iff_iff, beq_iff_eq, beq_iff_eq, NetIp.ofV4_inj, Addr.v4.injEq]
      exact eq_comm
    simp only [hostMatches, Scope.hostMatches, hpy, hgo, hslash, hpyRule, hgoRule, heq,
      Bool.false_eq_true, if_false]

/-- The requirements on a rule for plain URLs. -/
structure PlainRule (goRe : Scope.RegexEngine (List UInt8)) (rule : Vantage.ScopeRule) : Prop where
  ports_fit : ∀ ports ∈ rule.ports, ∀ n ∈ ports, fitsInt n = true
  host : IsName rule.host ∨ IsPlainV4 rule.host
  no_block : rule.host.toList.contains '/' = false
  schemes_ne : rule.schemes ≠ []
  compiles : ∀ p ∈ rule.pathRegex, (goRe p).isSome = true

theorem PlainRule.isPrivateLiteral_eq (h : PlainRule goRe rule) :
    isPrivateLiteral rule.host = Scope.isPrivateLiteral rule.host :=
  h.host.elim IsName.isPrivateLiteral_eq IsPlainV4.isPrivateLiteral_eq

theorem alike_of_plain (hport : ∀ digits ∈ url.port, digits = [] ∨ decimal digits ≠ 0)
    (hhost : IsName url.hostname ∨ IsPlainV4 url.hostname)
    (hpath : ∀ c ∈ url.path.toList, c ≠ '%' ∧ isControl c = false)
    (hrules : ∀ rule ∈ rules, PlainRule goRe rule) : Alike goRe rules url method where
  port := hport
  gate := by
    intro v hparse
    have hclass := hhost.elim IsName.isPrivateLiteral_eq IsPlainV4.isPrivateLiteral_eq
    have hoptin : (rules.any fun rule ↦ isPrivateLiteral rule.host ||
        rule.host.toList.contains '/') = rules.any Scope.ruleAllowsPrivate := by
      rw [Bool.eq_iff_iff, List.any_eq_true, List.any_eq_true]
      refine exists_congr fun rule ↦ and_congr_right fun hrule ↦ ?_
      rw [(hrules rule hrule).isPrivateLiteral_eq, Scope.ruleAllowsPrivate]
    simp only [proxyGate, Scope.gateOpen, Scope.ScopeEngine.fromRules, hoptin,
      (parse_spec hparse).1, hclass]
  rules := by
    intro v hparse _
    obtain ⟨hvhost, -, hvpath, -⟩ := parse_spec hparse
    refine ⟨_, decodedPath_of_plain hpath, fun rule hrule ↦ ?_⟩
    have hplain := hrules rule hrule
    refine ⟨hplain.ports_fit, ?_, fun _ hnil ↦ (hplain.schemes_ne hnil).elim, fun _ ↦ ?_,
      fun _ _ p hp ↦ ?_⟩
    · rw [hvhost]
      exact hhost.elim (·.hostMatches_eq rule.host) (·.hostMatches_eq hplain.host hplain.no_block)
    · rw [orRoot_encode, prefixMatches_encode, hvpath]
    · obtain ⟨search, hsearch⟩ := Option.isSome_iff_exists.mp (hplain.compiles p hp)
      exact ⟨search, hsearch, by rw [orRoot_encode, hvpath]⟩

/-! ## The decisions -/

/-- The decision of the proxy on a request that the Python engine parses. -/
theorem proxyAllows_iff {loaded : List ScopeRule} {v : Scope.ParsedUrl}
    (hload : loadRules rules = some loaded)
    (hport : ∀ digits ∈ url.port, digits = [] ∨ decimal digits ≠ 0)
    (hpath : decodedPath url.path = some path) (hparse : Scope.parse url.text method = some v) :
    proxyAllows goRe rules true url method = true ↔
      gateOpen (newScopeEngine loaded true) (goParsed path method v) = true ∧
        RulesCover goRe loaded (goParsed path method v) := by
  simp only [proxyAllows, hload, allows_iff, parseUrl_eq hport hpath, hparse, Option.map_some,
    Option.some.injEq, exists_eq_left']
  exact and_iff_right rfl

theorem proxyAllows_of_not_authorized : proxyAllows goRe rules false url method = false := by
  unfold proxyAllows
  cases loadRules rules with
  | none => rfl
  | some loaded =>
      simp only [allows_eq]
      rfl

/-- Behind a closed gate, and on a request that does not parse, the proxy allows nothing. -/
theorem proxyAllows_eq_false (hport : ∀ digits ∈ url.port, digits = [] ∨ decimal digits ≠ 0)
    (hgate : ∀ v, Scope.parse url.text method = some v → proxyGate rules v.host = false) :
    proxyAllows goRe rules true url method = false := by
  unfold proxyAllows
  cases hload : loadRules rules with
  | none => rfl
  | some loaded =>
      have hall := forall₂_of_loadRules hload
      simp only [allows_eq]
      cases hpath : decodedPath url.path with
      | none => simp [parseUrl_eq_none hpath]
      | some path =>
          rw [parseUrl_eq hport hpath]
          cases hparse : Scope.parse url.text method with
          | none => simp
          | some v => simp [gateOpen_eq_proxyGate hall, hgate v hparse]

/-- The URL of a registered name. -/
def httpUrl (host : String) (port : Option (List Char)) (path : String)
    (host_ok : (HostText.name host.toList).Valid)
    (port_ok : ∀ digits ∈ port, ∀ c ∈ digits, isAsciiDigit c = true)
    (path_start : path = "" ∨ path.toList.head? = some '/')
    (path_ok : ∀ c ∈ path.toList, c ≠ '?' ∧ c ≠ '#' ∧ Url.isUnsafe c = false) : WebUrl where
  scheme := "http"
  host := .name host.toList
  port := port
  path := path
  scheme_ok := by decide
  host_ok := host_ok
  port_ok := port_ok
  path_start := path_start
  path_ok := path_ok

def appUrl (path : String) (path_start : path = "" ∨ path.toList.head? = some '/')
    (path_ok : ∀ c ∈ path.toList, c ≠ '?' ∧ c ≠ '#' ∧ Url.isUnsafe c = false) : WebUrl :=
  httpUrl "app.example" none path (by decide) (by decide) path_start path_ok

end Vantage.EgressProxy
