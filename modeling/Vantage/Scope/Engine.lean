import Vantage.Domain.Target
import Vantage.Lib.FirstHit
import Vantage.Lib.Url

/-!
# The scope engine

The decision on whether a URL may be touched: excludes beat includes,
nothing outside the include set is in scope, and private address literals
are refused unless a rule opts into them. The regular expressions of rules
are compiled by a parameter; a pattern that does not compile raises when it
is reached.
-/

namespace Vantage.Scope

open Text IpAddress

/-- Compiles a pattern to a search over texts; `none` is a rejected pattern. -/
abbrev RegexEngine (σ : Type) := String → Option (σ → Bool)

def defaultPort (scheme : String) : Option ℕ :=
  if scheme = "http" ∨ scheme = "ws" then some 80
  else if scheme = "https" ∨ scheme = "wss" then some 443
  else none

structure ScopeDecision where
  allowed : Bool
  reason : String
  matchedRule : Option ℕ := none
deriving DecidableEq, Repr

structure ParsedUrl where
  scheme : String
  host : String
  port : ℕ
  path : String
  method : Option String
deriving DecidableEq, Repr

/-- An empty method counts as none. -/
def upperMethod (method : Option String) : Option String :=
  match method with
  | none => none
  | some m => if m = "" then none else some (upper m)

/-- `parts.port or default`: an explicit port 0 falls back to the default as well. -/
def portOrDefault (scheme : String) (explicit : Option ℕ) : ℕ :=
  match explicit with
  | some p => if p = 0 then (defaultPort scheme).getD 0 else p
  | none => (defaultPort scheme).getD 0

/-- The path that rules are tested on. -/
def effectivePath (path : String) : String := if path = "" then "/" else path

def parse (url : String) (method : Option String) : Option ParsedUrl := do
  let parts ← Url.urlsplit url
  if parts.scheme = "" then none else
  let hostname ← parts.hostname
  let scheme := lower parts.scheme
  let host := rstrip (lower hostname) '.'
  let explicit ← parts.port
  let port := portOrDefault scheme explicit
  if port = 0 then none else
  some ⟨scheme, host, port, effectivePath parts.path, upperMethod method⟩

/-- The host and the port that a request goes to. -/
def endpoint (scheme : String) (netloc : List Char) : Option (String × ℕ) := do
  let hostname ← Url.hostnameOf netloc
  let explicit ← Url.portOf netloc
  let port := portOrDefault scheme explicit
  if port = 0 then none else some (rstrip (lower (String.ofList hostname)) '.', port)

/-- Parsing looks at the path only to store it. -/
theorem parse_text (url : Url.Absolute) (method : Option String) : parse url.text method =
    if Url.netlocOk url.netloc.toList then
      (endpoint (lower url.scheme) url.netloc.toList).map fun e ↦
        ⟨lower url.scheme, e.1, e.2, effectivePath url.path, upperMethod method⟩
    else none := by
  have hscheme : lower url.scheme ≠ "" := by
    intro h
    apply url.scheme_ne_nil
    simpa [lower] using h
  unfold parse endpoint
  rw [url.urlsplit_text]
  split_ifs with hok
  · simp only [Option.bind_eq_bind, Option.bind_some, if_neg hscheme, lower_lower,
      Url.SplitResult.hostname, Url.SplitResult.port, Option.bind_map, Option.map_bind]
    cases Url.hostnameOf url.netloc.toList with
    | none => rfl
    | some hostname =>
        cases Url.portOf url.netloc.toList with
        | none => rfl
        | some explicit =>
            simp only [Option.bind_some, Function.comp_apply]
            by_cases hport : portOrDefault (lower url.scheme) explicit = 0
            · simp only [if_pos hport, Option.map_none]
            · simp only [if_neg hport, Option.map_some]
  · rfl

/-! ## Hosts -/

def hostMatches (ruleHost host : String) : Bool :=
  if ruleHost = host then true
  else if startsWith ruleHost "*." then
    let suffix := ruleHost.toList.drop 1
    suffix.isSuffixOf host.toList && host.toList != suffix.drop 1
  else
    match ipAddress host with
    | none => false
    | some addr =>
        if ruleHost.toList.contains '/' then
          match ipNetwork ruleHost with
          | some net => net.contains addr
          | none => false
        else
          match ipAddress ruleHost with
          | some ruleAddr => addr == ruleAddr
          | none => false

def isPrivateLiteral (host : String) : Bool :=
  match ipAddress host with
  | none => false
  | some addr => addr.isPrivate || addr.isLoopback || addr.isLinkLocal || addr.isReserved ||
      addr.isMulticast || addr.isUnspecified

/-- A rule whose host is a private literal or a block opts into private addresses. -/
def ruleAllowsPrivate (rule : ScopeRule) : Bool :=
  isPrivateLiteral rule.host || rule.host.toList.contains '/'

/-! ## Rules -/

def portMatches (ports : Option (List ℤ)) (scheme : String) (port : ℕ) : Bool :=
  match ports with
  | some ps => ps.contains (port : ℤ)
  | none => defaultPort scheme == some port

def regexMatches (re : RegexEngine String) (pattern : Option String) (path : String) :
    Except PyError Bool :=
  match pattern with
  | none => .ok true
  | some p =>
      match re p with
      | none => .error .regexError
      | some search => .ok (search path)

def methodMatches (methods : Option (List String)) (method : Option String) : Bool :=
  match methods, method with
  | some ms, some m => ms.contains m
  | _, _ => true

/-- The tests of a rule that do not look at the path or the method. -/
def originMatches (rule : ScopeRule) (u : ParsedUrl) : Bool :=
  rule.schemes.contains u.scheme && hostMatches rule.host u.host &&
    portMatches rule.ports u.scheme u.port

def ruleMatches (re : RegexEngine String) (rule : ScopeRule) (u : ParsedUrl) :
    Except PyError Bool :=
  if !originMatches rule u then .ok false
  else if !startsWith u.path rule.pathPrefix then .ok false
  else
    match regexMatches re rule.pathRegex u.path with
    | .error e => .error e
    | .ok false => .ok false
    | .ok true => .ok (methodMatches rule.methods u.method)

/-! ## The engine -/

structure ScopeEngine where
  rules : List ScopeRule
  authorized : Bool
  privateOptin : Bool
  privateOptin_eq : privateOptin = rules.any ruleAllowsPrivate

def ScopeEngine.fromRules (rules : List ScopeRule) (authorized : Bool) : ScopeEngine :=
  ⟨rules, authorized, rules.any ruleAllowsPrivate, rfl⟩

def ScopeEngine.ofTarget (target : Target) (now : Time) : ScopeEngine :=
  ScopeEngine.fromRules target.scopeRules (target.isAuthorized now)

/-- The test of one of the two scans: rules of the other kind are passed over. -/
def kindMatches (re : RegexEngine String) (kind : ScopeRuleKind) (u : ParsedUrl)
    (rule : ScopeRule) : Except PyError Bool :=
  if rule.kind = kind then ruleMatches re rule u else .ok false

def ScopeEngine.check (re : RegexEngine String) (e : ScopeEngine) (url : String)
    (method : Option String) : Except PyError ScopeDecision :=
  if !e.authorized then .ok { allowed := false, reason := "target has no valid authorization record" }
  else
    match parse url method with
    | none => .ok { allowed := false, reason := "unparseable or portless url: " ++ pyRepr url }
    | some u =>
        if isPrivateLiteral u.host && !e.privateOptin then
          .ok { allowed := false
                reason := "private/loopback address " ++ u.host ++ " not explicitly in scope" }
        else
          match FirstHit.firstHit (kindMatches re .exclude u) 0 e.rules with
          | .error err => .error err
          | .ok (some idx) =>
              .ok { allowed := false
                    reason := "excluded by rule #" ++ toString idx, matchedRule := some idx }
          | .ok none =>
              match FirstHit.firstHit (kindMatches re .include_ u) 0 e.rules with
              | .error err => .error err
              | .ok (some idx) =>
                  .ok { allowed := true
                        reason := "included by rule #" ++ toString idx, matchedRule := some idx }
              | .ok none => .ok { allowed := false, reason := "not covered by any include rule" }

/-- The allowed flag of a check; an error is a check that gives no decision. -/
def ScopeEngine.verdict (re : RegexEngine String) (e : ScopeEngine) (url : String)
    (method : Option String) : Except PyError Bool :=
  (e.check re url method).map ScopeDecision.allowed

/-- `allows`, with a raised error counted as no permission. -/
def ScopeEngine.Allows (re : RegexEngine String) (e : ScopeEngine) (url : String)
    (method : Option String) : Prop := e.verdict re url method = .ok true

instance (re : RegexEngine String) (e : ScopeEngine) (url : String) (method : Option String) :
    Decidable (e.Allows re url method) :=
  match h : e.verdict re url method with
  | .ok true => isTrue h
  | .ok false => isFalse (by simp [ScopeEngine.Allows, h])
  | .error _ => isFalse (by simp [ScopeEngine.Allows, h])

/-- The path up to its last slash; one is added where there is none. -/
def directoryOf (path : String) : String :=
  let p := path.toList
  if p.contains '/' then String.ofList (p.take (p.length - (afterLast '/' p).length))
  else String.ofList (p ++ ['/'])

def defaultScopeRulesFor (baseUrls : List String) : Except PyError (List ScopeRule) :=
  baseUrls.foldlM (fun rules base ↦
    match Url.urlsplit base with
    | none => .error .valueError
    | some parts =>
        match parts.hostname with
        | none => .ok rules
        | some hostname => do
            let scheme := lower (if parts.scheme = "" then "https" else parts.scheme)
            let dir := directoryOf parts.path
            let port ← (match parts.port with
              | none => .error .valueError
              | some port => .ok port)
            let rule ← ScopeRule.modelValidate
              { host := hostname, schemes := [scheme], pathPrefix := dir
                ports := match port with
                  | some p => if p = 0 then none else some [(p : ℤ)]
                  | none => none }
            .ok (rules ++ [rule])) []

/-! ## The verdict as two scans -/

/-- What the two scans decide once the private-address gate is passed. -/
def resolve (re : RegexEngine String) (rules : List ScopeRule) (u : ParsedUrl) :
    Except PyError Bool :=
  match FirstHit.scan (kindMatches re .exclude u) rules with
  | .error err => .error err
  | .ok true => .ok false
  | .ok false => FirstHit.scan (kindMatches re .include_ u) rules

/-- No exclude rule matches, and the first include rule whose test is not `false` matches. -/
def RulesCover (re : RegexEngine String) (rules : List ScopeRule) (u : ParsedUrl) : Prop :=
  (∀ rule ∈ rules, kindMatches re .exclude u rule = .ok false) ∧
    FirstHit.scan (kindMatches re .include_ u) rules = .ok true

/-- Whether a parsed URL gets past the private-address gate. -/
def gateOpen (e : ScopeEngine) (u : ParsedUrl) : Bool := !isPrivateLiteral u.host || e.privateOptin

theorem verdict_of_not_authorized {re : RegexEngine String} {e : ScopeEngine}
    (h : e.authorized = false) (url : String) (method : Option String) :
    e.verdict re url method = .ok false := by
  simp [ScopeEngine.verdict, ScopeEngine.check, h, Except.map]

theorem verdict_of_parse_eq_none {re : RegexEngine String} {e : ScopeEngine} {url : String}
    {method : Option String} (h : parse url method = none) :
    e.verdict re url method = .ok false := by
  unfold ScopeEngine.verdict ScopeEngine.check
  cases e.authorized <;> simp [h, Except.map]

theorem verdict_of_gate_closed (re : RegexEngine String) {e : ScopeEngine} {url : String}
    {method : Option String} {u : ParsedUrl} (hparse : parse url method = some u)
    (hgate : gateOpen e u = false) : e.verdict re url method = .ok false := by
  have hpriv : (isPrivateLiteral u.host && !e.privateOptin) = true := by
    simpa [gateOpen] using hgate
  unfold ScopeEngine.verdict ScopeEngine.check
  cases e.authorized <;> simp [hparse, hpriv, Except.map]

theorem verdict_eq_resolve (re : RegexEngine String) {e : ScopeEngine} {url : String}
    {method : Option String} {u : ParsedUrl} (hauth : e.authorized = true)
    (hparse : parse url method = some u) (hgate : gateOpen e u = true) :
    e.verdict re url method = resolve re e.rules u := by
  have hpriv : (isPrivateLiteral u.host && !e.privateOptin) = false := by
    cases hp : isPrivateLiteral u.host <;> simp_all [gateOpen]
  unfold ScopeEngine.verdict ScopeEngine.check resolve
  rw [← FirstHit.map_isSome_firstHit _ 0, ← FirstHit.map_isSome_firstHit _ 0]
  simp only [hauth, hparse, hpriv, Bool.not_true, Bool.false_eq_true, if_false]
  cases FirstHit.firstHit (kindMatches re .exclude u) 0 e.rules with
  | error err => rfl
  | ok hit =>
      cases hit with
      | some idx => rfl
      | none =>
          cases FirstHit.firstHit (kindMatches re .include_ u) 0 e.rules with
          | error err => rfl
          | ok hit => cases hit <;> rfl

theorem resolve_eq_true_iff {re : RegexEngine String} {rules : List ScopeRule} {u : ParsedUrl} :
    resolve re rules u = .ok true ↔ RulesCover re rules u := by
  rw [RulesCover, ← FirstHit.scan_eq_false_iff]
  unfold resolve
  cases FirstHit.scan (kindMatches re .exclude u) rules with
  | error e => simp
  | ok b => cases b <;> simp

/-- What it takes to allow a request. -/
theorem allows_iff {re : RegexEngine String} {e : ScopeEngine} {url : String}
    {method : Option String} : e.Allows re url method ↔
      e.authorized = true ∧ ∃ u, parse url method = some u ∧ gateOpen e u = true ∧
        RulesCover re e.rules u := by
  unfold ScopeEngine.Allows
  cases hauth : e.authorized with
  | false => simp [verdict_of_not_authorized hauth]
  | true =>
      cases hparse : parse url method with
      | none => simp [verdict_of_parse_eq_none hparse]
      | some u =>
          cases hgate : gateOpen e u with
          | false => simp [verdict_of_gate_closed re hparse hgate, hgate]
          | true => simp [verdict_eq_resolve re hauth hparse hgate, hgate, resolve_eq_true_iff]

end Vantage.Scope
