import Vantage.Domain.Common
import Vantage.Lib.Text

/-!
# Targets, scope rules and authorization records

The validators of the models are fields of the structures, so that a rule
the model rejects cannot be written down.
-/

namespace Vantage

open Text

inductive ApplicationKind where
  | unknown
  | traditionalWeb
  | spa
  | restApi
  | graphqlApi
  | soapApi
  | websocket
deriving DecidableEq, Repr

def ApplicationKind.value : ApplicationKind → String
  | .unknown => "unknown"
  | .traditionalWeb => "traditional_web"
  | .spa => "spa"
  | .restApi => "rest_api"
  | .graphqlApi => "graphql_api"
  | .soapApi => "soap_api"
  | .websocket => "websocket"

inductive AuthorizationMethod where
  | dnsTxt
  | httpFile
  | signedAttestation
  | internalAsset
deriving DecidableEq, Repr

structure AuthorizationRecord where
  method : AuthorizationMethod
  verifiedAt : Time
  verifiedBy : String
  expiresAt : Option Time := none
  verifiedBy_ne : verifiedBy ≠ ""

def AuthorizationRecord.isValid (a : AuthorizationRecord) (now : Time) : Bool :=
  match a.expiresAt with
  | none => true
  | some t => now < t

/-! ## Scope rules -/

inductive ScopeRuleKind where
  | include_
  | exclude
deriving DecidableEq, Repr

/-- The `host` validator. -/
def lowerHost (v : String) : String := rstrip (lower (strip v)) '.'

def supportedSchemes : List String := ["http", "https", "ws", "wss"]

/-- One include or exclude rule, as the model stores it after validation. -/
structure ScopeRule where
  kind : ScopeRuleKind
  host : String
  schemes : List String
  ports : Option (List ℤ)
  pathPrefix : String
  pathRegex : Option String
  methods : Option (List String)
  host_ok : ∃ v : String, 1 ≤ v.length ∧ v.length ≤ 253 ∧ lowerHost v = host
  schemes_ok : ∀ s ∈ schemes, s ∈ supportedSchemes
  pathPrefix_ok : startsWith pathPrefix "/" = true
  methods_ok : ∀ ms ∈ methods, ∀ m ∈ ms, upper m = m

/-- The fields of a rule before validation, with the defaults of the model. -/
structure RawScopeRule where
  kind : ScopeRuleKind := .include_
  host : String
  schemes : List String := ["https", "http"]
  ports : Option (List ℤ) := none
  pathPrefix : String := "/"
  pathRegex : Option String := none
  methods : Option (List String) := none
deriving DecidableEq, Repr

/-- `ScopeRule.model_validate`. -/
def ScopeRule.modelValidate (raw : RawScopeRule) : Except PyError ScopeRule :=
  let schemes := raw.schemes.map lower
  if h : (1 ≤ raw.host.length ∧ raw.host.length ≤ 253) ∧ (∀ s ∈ schemes, s ∈ supportedSchemes) ∧
      startsWith raw.pathPrefix "/" = true then
    .ok { kind := raw.kind
          host := lowerHost raw.host
          schemes := schemes
          ports := raw.ports
          pathPrefix := raw.pathPrefix
          pathRegex := raw.pathRegex
          methods := raw.methods.map (·.map upper)
          host_ok := ⟨raw.host, h.1.1, h.1.2, rfl⟩
          schemes_ok := h.2.1
          pathPrefix_ok := h.2.2
          methods_ok := by
            intro ms hms m hm
            obtain ⟨ms', -, rfl⟩ := Option.mem_map.mp hms
            obtain ⟨m', -, rfl⟩ := List.mem_map.mp hm
            exact upper_upper m' }
  else .error .validationError

/-- `model_dump`. -/
def ScopeRule.dump (rule : ScopeRule) : RawScopeRule where
  kind := rule.kind
  host := rule.host
  schemes := rule.schemes
  ports := rule.ports
  pathPrefix := rule.pathPrefix
  pathRegex := rule.pathRegex
  methods := rule.methods

theorem upper_of_no_methods :
    ∀ ms ∈ (none : Option (List String)), ∀ m ∈ ms, upper m = m := by simp

/-- The include rule with all defaults for a host. -/
def ScopeRule.ofHost (host : String)
    (host_ok : ∃ v : String, 1 ≤ v.length ∧ v.length ≤ 253 ∧ lowerHost v = host) : ScopeRule where
  kind := .include_
  host := host
  schemes := ["https", "http"]
  ports := none
  pathPrefix := "/"
  pathRegex := none
  methods := none
  host_ok := host_ok
  schemes_ok := by simp [supportedSchemes]
  pathPrefix_ok := startsWith_self "/"
  methods_ok := upper_of_no_methods

def demoHost : ScopeRule := .ofHost "app.example" ⟨"app.example", by decide⟩

/-- Everything on the host except `/admin`. -/
def allButAdmin : List ScopeRule :=
  [demoHost, { demoHost with kind := .exclude, pathPrefix := "/admin", pathPrefix_ok := by decide }]

/-! ## Targets -/

structure RateLimits where
  maxRequestsPerSecond : ℚ
  maxConcurrency : ℕ
  rate_ok : 0 < maxRequestsPerSecond ∧ maxRequestsPerSecond ≤ 1000
  concurrency_ok : 1 ≤ maxConcurrency ∧ maxConcurrency ≤ 256

structure Target where
  id : String
  tenantId : String
  name : String
  baseUrls : List String
  kind : ApplicationKind
  scopeRules : List ScopeRule
  rateLimits : RateLimits
  authorization : Option AuthorizationRecord
  createdAt : Time
  name_ok : 1 ≤ name.length ∧ name.length ≤ 200
  baseUrls_ne : baseUrls ≠ []

def Target.isAuthorized (t : Target) (now : Time) : Bool :=
  t.authorization.any (·.isValid now)

end Vantage
