import Vantage.EgressProxy.WebUrl
import Vantage.Lib.NetIp
import Vantage.Lib.Utf8

/-!
# The scope engine of the egress proxy

The counterpart of the scope engine on the side of the proxy. It works on
the bytes of the decoded path, reads an empty scheme list as the default
one and lets a pattern that does not compile match nothing. Compiled
patterns are cached there, which no decision depends on.
-/

namespace Vantage.EgressProxy

open Text IpAddress

/-! ## `url.Parse` -/

/-- The bytes of a path with its percent escapes decoded; `none` for an
incomplete escape. -/
def unescapePath : List Char → Option (List UInt8)
  | [] => some []
  | '%' :: a :: b :: rest =>
      match hexValue a, hexValue b with
      | some hi, some lo => (unescapePath rest).map (UInt8.ofNat (16 * hi + lo) :: ·)
      | _, _ => none
  | c :: rest =>
      if c = '%' then none else (unescapePath rest).map (String.utf8EncodeChar c ++ ·)

def isControl (c : Char) : Bool := c.toNat < 32 || c.toNat == 127

/-- The `Path` of the parsed URL; control characters are an error. -/
def decodedPath (path : String) : Option (List UInt8) :=
  if path.toList.any isControl then none else unescapePath path.toList

/-! ## The engine -/

/-- A rule as it is read from JSON. -/
structure ScopeRule where
  kind : String
  host : String
  schemes : List String
  ports : Option (List ℤ)
  pathPrefix : String
  pathRegex : Option String
  methods : Option (List String)

structure ParsedUrl where
  scheme : String
  host : String
  port : ℕ
  path : List UInt8
  method : String

/-- `net.LookupPort` on decimal digits. -/
def lookupPort (digits : List Char) : Option ℕ :=
  if decimal digits ≤ 65535 then some (decimal digits) else none

def urlPort (scheme : String) (u : WebUrl) : Option ℕ :=
  match u.port with
  | some (d :: digits) => lookupPort (d :: digits)
  | _ => some ((Scope.defaultPort scheme).getD 0)

/-- The path that rules are tested on. -/
def orRoot (path : List UInt8) : List UInt8 := if path.isEmpty then Utf8.encode ['/'] else path

def parseUrl (u : WebUrl) (method : String) : Option ParsedUrl := do
  let path ← decodedPath u.path
  let scheme := lower u.scheme
  let host := rstrip (lower (String.ofList u.host.bare)) '.'
  let port ← urlPort scheme u
  if port = 0 then none else
  some ⟨scheme, host, port, orRoot path, upper method⟩

def isPrivateLiteral (host : String) : Bool :=
  match NetIp.parseIP host with
  | none => false
  | some ip => NetIp.isLoopback ip || NetIp.isPrivate ip || NetIp.isLinkLocalUnicast ip ||
      NetIp.isLinkLocalMulticast ip || NetIp.isMulticast ip || NetIp.isUnspecified ip

def ruleAllowsPrivate (r : ScopeRule) : Bool :=
  isPrivateLiteral r.host || r.host.toList.contains '/'

def hostMatches (ruleHost host : String) : Bool :=
  if ruleHost = host then true
  else if startsWith ruleHost "*." then
    let suffix := ruleHost.toList.drop 1
    suffix.isSuffixOf host.toList && host.toList != suffix.drop 1
  else
    match NetIp.parseIP host with
    | none => false
    | some addr =>
        if ruleHost.toList.contains '/' then
          match NetIp.parseCIDR ruleHost with
          | some cidr => cidr.contains addr
          | none => false
        else
          match NetIp.parseIP ruleHost with
          | some ruleIP => ruleIP == addr
          | none => false

def defaultSchemes (schemes : List String) : List String :=
  if schemes.isEmpty then ["https", "http"] else schemes

/-- The tests of a rule that do not look at the path or the method. -/
def originMatches (r : ScopeRule) (u : ParsedUrl) : Bool :=
  (defaultSchemes r.schemes).contains u.scheme && hostMatches r.host u.host &&
    (match r.ports with
      | some ports => ports.contains (u.port : ℤ)
      | none => u.port == (Scope.defaultPort u.scheme).getD 0)

def prefixMatches (pathPrefix : String) (path : List UInt8) : Bool :=
  (Utf8.encode (if pathPrefix = "" then "/" else pathPrefix).toList).isPrefixOf path

def regexMatches (re : Scope.RegexEngine (List UInt8)) (pattern : Option String)
    (path : List UInt8) : Bool :=
  match pattern with
  | none => true
  | some p =>
      match re p with
      | none => false
      | some search => search path

def methodMatches (methods : Option (List String)) (method : String) : Bool :=
  match methods with
  | none => true
  | some ms => method == "" || ms.contains method

/-- The tests of a rule on the path. -/
def pathMatches (re : Scope.RegexEngine (List UInt8)) (r : ScopeRule) (path : List UInt8) : Bool :=
  prefixMatches r.pathPrefix path && regexMatches re r.pathRegex path

def ruleMatches (re : Scope.RegexEngine (List UInt8)) (r : ScopeRule) (u : ParsedUrl) : Bool :=
  originMatches r u && pathMatches re r u.path && methodMatches r.methods u.method

structure ScopeEngine where
  rules : List ScopeRule
  authorized : Bool
  privateOptIn : Bool
  privateOptIn_eq : privateOptIn = rules.any ruleAllowsPrivate

def newScopeEngine (rules : List ScopeRule) (authorized : Bool) : ScopeEngine :=
  ⟨rules, authorized, rules.any ruleAllowsPrivate, rfl⟩

structure Decision where
  allowed : Bool
  reason : String
  rule : ℤ
deriving DecidableEq, Repr

def isExclude (r : ScopeRule) : Bool := lower r.kind == "exclude"

/-- `Check` of what the parser made of the URL. -/
def ScopeEngine.checkParsed (re : Scope.RegexEngine (List UInt8)) (e : ScopeEngine)
    (parsed : Option ParsedUrl) : Decision :=
  if !e.authorized then ⟨false, "target has no valid authorization record", -1⟩
  else
    match parsed with
    | none => ⟨false, "unparseable or portless url", -1⟩
    | some u =>
        if isPrivateLiteral u.host && !e.privateOptIn then
          ⟨false, "private/loopback address not explicitly in scope", -1⟩
        else
          match e.rules.findIdx? fun r ↦ isExclude r && ruleMatches re r u with
          | some i => ⟨false, "excluded by rule", i⟩
          | none =>
              match e.rules.findIdx? fun r ↦ !isExclude r && ruleMatches re r u with
              | some i => ⟨true, "included by rule", i⟩
              | none => ⟨false, "not covered by any include rule", -1⟩

def ScopeEngine.check (re : Scope.RegexEngine (List UInt8)) (e : ScopeEngine) (url : WebUrl)
    (method : String) : Decision :=
  e.checkParsed re (parseUrl url method)

def ScopeEngine.allows (re : Scope.RegexEngine (List UInt8)) (e : ScopeEngine) (url : WebUrl)
    (method : String) : Bool :=
  (e.check re url method).allowed

/-! ## What it takes to allow a request -/

def gateOpen (e : ScopeEngine) (u : ParsedUrl) : Bool := !isPrivateLiteral u.host || e.privateOptIn

/-- No exclude rule matches and some other rule does. -/
def RulesCover (re : Scope.RegexEngine (List UInt8)) (rules : List ScopeRule) (u : ParsedUrl) :
    Prop :=
  (∀ r ∈ rules, isExclude r = true → ruleMatches re r u = false) ∧
    ∃ r ∈ rules, isExclude r = false ∧ ruleMatches re r u = true

/-- What the two passes over the rules decide. -/
def resolve (re : Scope.RegexEngine (List UInt8)) (rules : List ScopeRule) (u : ParsedUrl) : Bool :=
  !(rules.any fun r ↦ isExclude r && ruleMatches re r u) &&
    rules.any fun r ↦ !isExclude r && ruleMatches re r u

theorem resolve_eq_true_iff {re : Scope.RegexEngine (List UInt8)} {rules : List ScopeRule}
    {u : ParsedUrl} : resolve re rules u = true ↔ RulesCover re rules u := by
  simp [resolve, RulesCover]

theorem checkParsed_allowed (re : Scope.RegexEngine (List UInt8)) (e : ScopeEngine)
    (parsed : Option ParsedUrl) : (e.checkParsed re parsed).allowed =
      (e.authorized && parsed.any fun u ↦ gateOpen e u && resolve re e.rules u) := by
  unfold ScopeEngine.checkParsed
  cases e.authorized with
  | false => rfl
  | true =>
      cases parsed with
      | none => rfl
      | some u =>
          have hgate : (isPrivateLiteral u.host && !e.privateOptIn) = !gateOpen e u := by
            simp [gateOpen]
          simp only [Bool.not_true, Bool.false_eq_true, if_false, hgate, Option.any_some,
            Bool.true_and, resolve, ← List.findIdx?_isSome]
          cases gateOpen e u with
          | false => rfl
          | true =>
              cases e.rules.findIdx? fun r ↦ isExclude r && ruleMatches re r u with
              | some i => rfl
              | none =>
                  cases e.rules.findIdx? fun r ↦ !isExclude r && ruleMatches re r u <;> rfl

theorem checkParsed_allowed_iff {re : Scope.RegexEngine (List UInt8)} {e : ScopeEngine}
    {parsed : Option ParsedUrl} : (e.checkParsed re parsed).allowed = true ↔
      e.authorized = true ∧ ∃ u, parsed = some u ∧ gateOpen e u = true ∧
        RulesCover re e.rules u := by
  simp [checkParsed_allowed, Option.any_eq_true, resolve_eq_true_iff]

theorem allows_eq (re : Scope.RegexEngine (List UInt8)) (e : ScopeEngine) (url : WebUrl)
    (method : String) : e.allows re url method =
      (e.authorized && (parseUrl url method).any fun u ↦ gateOpen e u && resolve re e.rules u) :=
  checkParsed_allowed re e (parseUrl url method)

theorem allows_iff {re : Scope.RegexEngine (List UInt8)} {e : ScopeEngine} {url : WebUrl}
    {method : String} : e.allows re url method = true ↔
      e.authorized = true ∧ ∃ u, parseUrl url method = some u ∧ gateOpen e u = true ∧
        RulesCover re e.rules u :=
  checkParsed_allowed_iff

end Vantage.EgressProxy
