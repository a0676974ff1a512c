import Vantage.Domain.Common
import Vantage.Lib.Json
import Vantage.Lib.Utf8

/-!
# Evidence, observations and the unified finding
-/

namespace Vantage

open Text

/-! ## Evidence -/

inductive EvidenceKind where
  | httpExchange
  | responseMatch
  | domObservation
  | oobInteraction
  | tlsObservation
  | headerObservation
  | validationResult
  | note
deriving DecidableEq, Repr

def EvidenceKind.value : EvidenceKind → String
  | .httpExchange => "http_exchange"
  | .responseMatch => "response_match"
  | .domObservation => "dom_observation"
  | .oobInteraction => "oob_interaction"
  | .tlsObservation => "tls_observation"
  | .headerObservation => "header_observation"
  | .validationResult => "validation_result"
  | .note => "note"

def maxEvidenceBody : ℕ := 64 * 1024

/-- The characters whose encodings fit into the budget of bytes. -/
def takeBytes (budget : ℕ) : List Char → List Char
  | [] => []
  | c :: l => if c.utf8Size ≤ budget then c :: takeBytes (budget - c.utf8Size) l else []

/-- The `body` validator; a character that the cut splits is dropped. -/
def capBody (v : String) : String :=
  if maxEvidenceBody < (Utf8.encode v.toList).length then
    String.ofList (takeBytes maxEvidenceBody v.toList)
  else v

theorem length_encode_takeBytes (l : List Char) (budget : ℕ) :
    (Utf8.encode (takeBytes budget l)).length ≤ budget := by
  induction l generalizing budget with
  | nil => simp [takeBytes]
  | cons c l ih =>
      unfold takeBytes
      split_ifs with hfits
      · have htail := ih (budget - c.utf8Size)
        rw [Utf8.encode_cons, List.length_append, String.length_utf8EncodeChar]
        omega
      · simp

theorem length_encode_capBody (v : String) :
    (Utf8.encode (capBody v).toList).length ≤ maxEvidenceBody := by
  unfold capBody
  split_ifs with hlong
  · rw [String.toList_ofList]
    exact length_encode_takeBytes _ _
  · exact not_lt.mp hlong

structure HttpMessage where
  method : Option String
  url : Option String
  status : Option ℤ
  headers : List (String × String)
  body : Option String
  bodyTruncated : Bool
  body_ok : ∀ b ∈ body, (Utf8.encode b.toList).length ≤ maxEvidenceBody

/-- The fields of a message before validation, with the defaults of the model. -/
structure RawHttpMessage where
  method : Option String := none
  url : Option String := none
  status : Option ℤ := none
  headers : List (String × String) := []
  body : Option String := none
  bodyTruncated : Bool := false

def HttpMessage.modelValidate (raw : RawHttpMessage) : HttpMessage where
  method := raw.method
  url := raw.url
  status := raw.status
  headers := raw.headers
  body := raw.body.map capBody
  bodyTruncated := raw.bodyTruncated
  body_ok := by
    intro b hb
    obtain ⟨v, -, rfl⟩ := Option.mem_map.mp hb
    exact length_encode_capBody v

/-- A message that is dumped and validated again. -/
def HttpMessage.revalidate (m : HttpMessage) : HttpMessage :=
  .modelValidate ⟨m.method, m.url, m.status, m.headers, m.body, m.bodyTruncated⟩

@[simp] theorem HttpMessage.revalidate_eq (m : HttpMessage) : m.revalidate = m := by
  have hbody : m.body.map capBody = m.body := by
    cases hb : m.body with
    | none => rfl
    | some b => exact congrArg some (if_neg (not_lt.mpr (m.body_ok b hb)))
  cases m
  simp only [revalidate, modelValidate, HttpMessage.mk.injEq, true_and, and_true]
  exact hbody

def isIdentifierChar (c : Char) : Bool :=
  ('A' ≤ c && c ≤ 'Z') || ('a' ≤ c && c ≤ 'z') || isAsciiDigit c || c == '_' || c == '.' ||
    c == ':' || c == '-'

/-- The constraint of `Identifier`. -/
def isIdentifier (s : String) : Bool :=
  1 ≤ s.length && s.length ≤ 64 && s.toList.all isIdentifierChar

def maxSummary : ℕ := 2000

structure Evidence where
  kind : EvidenceKind
  engineId : String
  summary : String
  request : Option HttpMessage
  response : Option HttpMessage
  matched : List String
  data : List (String × Json)
  engineId_ok : isIdentifier engineId = true
  summary_ok : summary.length ≤ maxSummary

structure RawEvidence where
  kind : EvidenceKind
  engineId : String
  summary : String
  request : Option HttpMessage := none
  response : Option HttpMessage := none
  matched : List String := []
  data : List (String × Json) := []

def Evidence.modelValidate (raw : RawEvidence) : Except PyError Evidence :=
  if h : isIdentifier raw.engineId = true ∧ raw.summary.length ≤ maxSummary then
    .ok { kind := raw.kind
          engineId := raw.engineId
          summary := raw.summary
          request := raw.request
          response := raw.response
          matched := raw.matched
          data := raw.data
          engineId_ok := h.1
          summary_ok := h.2 }
  else .error .validationError

def Evidence.revalidate (e : Evidence) : Evidence :=
  { e with request := e.request.map .revalidate, response := e.response.map .revalidate }

@[simp] theorem Evidence.revalidate_eq (e : Evidence) : e.revalidate = e := by
  have hid : HttpMessage.revalidate = id := funext HttpMessage.revalidate_eq
  simp [revalidate, hid]

/-! ## Observations -/

/-- The `host` validator of a location. -/
def locationHost (v : String) : String := rstrip (lower v) '.'

structure Location where
  scheme : String
  host : String
  port : ℤ
  path : String
  method : Option String
  parameter : Option String
  host_ok : ∃ v, locationHost v = host
  method_ok : ∀ m ∈ method, upper m = m

structure RawLocation where
  scheme : String
  host : String
  port : ℤ
  path : String := "/"
  method : Option String := none
  parameter : Option String := none

def Location.modelValidate (raw : RawLocation) : Location where
  scheme := raw.scheme
  host := locationHost raw.host
  port := raw.port
  path := raw.path
  method := raw.method.map upper
  parameter := raw.parameter
  host_ok := ⟨raw.host, rfl⟩
  method_ok := by
    intro m hm
    obtain ⟨m', -, rfl⟩ := Option.mem_map.mp hm
    exact upper_upper m'

def Location.revalidate (l : Location) : Location :=
  .modelValidate ⟨l.scheme, l.host, l.port, l.path, l.method, l.parameter⟩

theorem locationHost_lower (v : String) : locationHost (lower v) = locationHost v := by
  rw [locationHost, locationHost, lower_lower]

@[simp] theorem Location.locationHost_host (l : Location) : locationHost l.host = l.host := by
  obtain ⟨v, hv⟩ := l.host_ok
  rw [← hv, locationHost, locationHost, lower_rstrip_lower, rstrip_rstrip]

@[simp] theorem Location.map_upper_method (l : Location) : l.method.map upper = l.method := by
  cases hm : l.method with
  | none => rfl
  | some m => exact congrArg some (l.method_ok m hm)

@[simp] theorem Location.revalidate_eq (l : Location) : l.revalidate = l := by
  have hhost := l.locationHost_host
  have hmethod := l.map_upper_method
  cases l
  simp only [revalidate, modelValidate, Location.mk.injEq, true_and, and_true]
  exact ⟨hhost, hmethod⟩

/-- One issue as reported by one engine. -/
structure Observation where
  id : String
  scanId : String
  runId : String
  engineId : String
  engineVersion : String
  detectorId : String
  title : String
  vulnClass : String
  severity : Severity
  confidence : Confidence
  cwe : List ℤ
  location : Location
  description : String
  remediation : String
  references : List String
  evidence : List Evidence
  observedAt : Time
  engineId_ok : isIdentifier engineId = true

def Observation.revalidate (o : Observation) : Observation :=
  { o with location := o.location.revalidate, evidence := o.evidence.map .revalidate }

/-- Validators are idempotent, so a dumped observation is read back as it was. -/
@[simp] theorem Observation.revalidate_eq (o : Observation) : o.revalidate = o := by
  have hevidence : o.evidence.map Evidence.revalidate = o.evidence :=
    (List.map_congr_left fun e _ ↦ e.revalidate_eq).trans (List.map_id _)
  simp only [revalidate, Location.revalidate_eq, hevidence]

/-! ## Unified findings -/

inductive FindingStatus where
  | open_
  | triaged
  | acceptedRisk
  | fixed
  | falsePositive
deriving DecidableEq, Repr

/-- The single user-facing finding produced by correlation. -/
structure UnifiedFinding where
  id : String
  tenantId : String
  scanId : String
  targetId : String
  fingerprint : String
  title : String
  category : String
  severity : Severity
  confidence : Confidence
  riskScore : ℚ
  cwe : List ℤ
  owasp : List String
  host : String
  port : ℤ
  endpoint : String
  method : Option String
  parameter : Option String
  affectedUrls : List String
  description : String
  remediation : String
  references : List String
  engines : List String
  detectors : List String
  observationIds : List String
  evidence : List Evidence
  status : FindingStatus := .open_
  firstSeen : Time
  lastSeen : Time

/-- A finding that is dumped and validated again. -/
def UnifiedFinding.revalidate (f : UnifiedFinding) : UnifiedFinding :=
  { f with evidence := f.evidence.map .revalidate }

@[simp] theorem UnifiedFinding.revalidate_eq (f : UnifiedFinding) : f.revalidate = f := by
  have hevidence : f.evidence.map Evidence.revalidate = f.evidence :=
    (List.map_congr_left fun e _ ↦ e.revalidate_eq).trans (List.map_id _)
  rw [revalidate, hevidence]

end Vantage
