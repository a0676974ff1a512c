import Vantage.Domain.Finding
import Vantage.Lib.Effect

/-!
# Validation of observations

A candidate observation is tested again and its confidence set by the result.
-/

namespace Vantage.Scan

open Text

inductive Verdict where
  | confirmed
  | refuted
  | inconclusive
deriving DecidableEq, Repr

structure ProbeResponse where
  status : ℤ
  headers : List (String × String)
  body : String
  url : String

/-- HTTP access for tests, over a state that the network may change. -/
structure Prober (σ : Type) where
  get : String → Effect PyError σ ProbeResponse

structure ValidationResult where
  verdict : Verdict
  confidence : Confidence
  evidence : Option Evidence
  detail : String

structure ValidationStrategy (σ : Type) where
  handles : Observation → Bool
  validate : Observation → Prober σ → Effect PyError σ ValidationResult

def urlOf (obs : Observation) : String :=
  obs.location.scheme ++ "://" ++ obs.location.host ++ ":" ++ toString obs.location.port ++
    obs.location.path

def validatorId : String := "vantage-validator"

/-! ## Configuration findings -/

namespace ConfigReverify

def categories : List String :=
  ["missing_security_header", "insecure_cookie", "cors_misconfiguration", "directory_listing",
    "clickjacking"]

def handles (obs : Observation) : Bool := categories.contains obs.vulnClass

def isHeaderName (name : String) : Bool :=
  ["content-security", "strict-transport", "x-", "referrer"].any (startsWith (lower name))

/-- The header that the finding reports as missing. -/
def expectedHeader (obs : Observation) : Option String :=
  match (obs.evidence.flatMap Evidence.matched).find? isHeaderName with
  | some name => some (lower name)
  | none => (cut ':' obs.detectorId.toList).2.map fun name ↦ lower (String.ofList name)

/-- `headers.get(name, "")`. -/
def header (headers : List (String × String)) (name : String) : String :=
  (headers.lookup name).getD ""

def conditionHolds (obs : Observation) (resp : ProbeResponse) : Bool :=
  let headerNames := resp.headers.map fun h ↦ lower h.1
  let cat := obs.vulnClass
  if cat = "missing_security_header" then
    match expectedHeader obs with
    | none => false
    | some expected => !headerNames.contains expected
  else if cat = "clickjacking" then
    !headerNames.contains "x-frame-options" && !headerNames.contains "content-security-policy"
  else if cat = "insecure_cookie" then
    let lowered := header resp.headers "set-cookie"
    let setCookie := if lowered = "" then header resp.headers "Set-Cookie" else lowered
    !contains (lower setCookie) "secure" || !contains (lower setCookie) "httponly"
  else if cat = "directory_listing" then
    let body := lower resp.body
    contains body "index of /" || contains body "<title>directory listing"
  else if cat = "cors_misconfiguration" then
    headerNames.contains "access-control-allow-origin"
  else false

variable {σ : Type}

def evidence (obs : Observation) (resp : ProbeResponse) (stillPresent : Bool) : RawEvidence where
  kind := .validationResult
  engineId := validatorId
  summary := "Re-verified " ++ obs.vulnClass ++ ": condition " ++
    (if stillPresent then "holds" else "no longer holds") ++ " on fresh request"
  response := some <| HttpMessage.modelValidate
    { status := some resp.status, url := some resp.url, headers := resp.headers }
  data := [("category", .str obs.vulnClass)]

def validate (obs : Observation) (prober : Prober σ) : Effect PyError σ ValidationResult := do
  let resp ← prober.get (urlOf obs)
  let stillPresent := conditionHolds obs resp
  let ev ← Effect.ofExcept (Evidence.modelValidate (evidence obs resp stillPresent))
  if stillPresent then pure ⟨.confirmed, .confirmed, some ev, "condition holds"⟩
  else pure ⟨.refuted, .falsePositive, some ev, "condition not reproduced"⟩

def strategy : ValidationStrategy σ := ⟨handles, validate⟩

end ConfigReverify

/-! ## Reflections -/

namespace ReflectionConsistency

def categories : List String := ["xss", "open_redirect", "header_injection"]

/-- The first match of the first evidence that has any. -/
def marker (obs : Observation) : Option String :=
  (obs.evidence.find? (!·.matched.isEmpty)).bind fun ev ↦ ev.matched.head?

/-- An empty marker is none. -/
def handles (obs : Observation) : Bool :=
  categories.contains obs.vulnClass && orElse (marker obs) "" != ""

variable {σ : Type}

def evidence (obs : Observation) (marker : String) (baselineClean : Bool) : RawEvidence where
  kind := .validationResult
  engineId := validatorId
  summary := "Baseline differential for " ++ obs.vulnClass ++ ": marker " ++
    (if baselineClean then "absent from" else "present in") ++ " clean baseline"
  matched := [marker]
  data := [("baseline_clean", .bool baselineClean)]

def validate (obs : Observation) (prober : Prober σ) : Effect PyError σ ValidationResult := do
  let marker := orElse (marker obs) ""
  if marker = "" then
    pure ⟨.inconclusive, obs.confidence, none, "no reproducible marker"⟩
  else
    let base ← prober.get (urlOf obs)
    let baselineClean := !contains base.body marker
    let ev ← Effect.ofExcept (Evidence.modelValidate (evidence obs marker baselineClean))
    if baselineClean then
      pure ⟨.inconclusive, .firm, some ev, "marker absent from baseline; reflection is meaningful"⟩
    else
      pure ⟨.refuted, .falsePositive, some ev,
        "marker present in clean baseline; likely coincidental"⟩

def strategy : ValidationStrategy σ := ⟨handles, validate⟩

end ReflectionConsistency

/-! ## The engine -/

variable {σ : Type}

structure ValidationEngine (σ : Type) where
  strategies : List (ValidationStrategy σ) :=
    [ConfigReverify.strategy, ReflectionConsistency.strategy]

/-- A confirmed observation is only ever lowered to a false positive. -/
def newConfidence (old new : Confidence) : Confidence :=
  if old = .confirmed ∧ new ≠ .falsePositive then .confirmed else new

/-- The observation with the result of its test. -/
def revise (obs : Observation) (result : ValidationResult) (now : Time) : Observation :=
  { obs with
    confidence := newConfidence obs.confidence result.confidence
    evidence := obs.evidence ++ result.evidence.toList
    observedAt := now }

/-- The first strategy that handles the observation decides. -/
def ValidationEngine.validate (e : ValidationEngine σ) (utcnow : Effect PyError σ Time)
    (obs : Observation) (prober : Prober σ) : Effect PyError σ Observation :=
  match e.strategies.find? (·.handles obs) with
  | none => pure obs
  | some strategy => do
      let result ← strategy.validate obs prober
      let now ← utcnow
      pure (revise obs result now)

end Vantage.Scan
