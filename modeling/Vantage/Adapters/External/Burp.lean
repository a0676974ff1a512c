import Vantage.Adapters.Oss.Base

/-!
# Burp Suite over its REST API

The customer hosts the service; a scan is started, polled within a budget of
time, and its issues are normalized.
-/

namespace Vantage.Adapters.External

open Text Engines Findings Oss

structure BurpConfig where
  baseUrl : String := ""
  pollIntervalSeconds : ℚ := 5

def BurpConfig.configured (c : BurpConfig) : Bool := c.baseUrl ≠ ""

structure BurpResponse where
  status : ℤ
  json : Record := []
  error : Option String := none

/-- A transport to the service; only waiting takes time. -/
structure BurpTransport where
  post : String → Json → Action BurpResponse
  get : String → Action BurpResponse
  sleep : ℚ → Action Unit
  close : Action Unit

structure BurpAdapter where
  config : BurpConfig
  version : String := "external"
  transport : BurpTransport
  maxPollSeconds : ℕ := 3600

namespace BurpAdapter

theorem id_ok : isIdentifier "burp" = true := by decide

variable (a : BurpAdapter)

def metadata : EngineMetadata where
  id := "burp"
  name := "Burp Suite (external)"
  version := a.version
  vendor := "PortSwigger"
  licenseSpdx := "LicenseRef-PortSwigger-Commercial"
  licenseClass := .red
  approvalStatus := .approved
  integration := .externalService
  capabilities := [.auditActive, .auditPassive, .crawlHttp]
  image := none
  homepage := some "https://portswigger.net/burp"
  id_ok := id_ok

def failed (r : BurpResponse) : Bool := orElse r.error "" ≠ ""

def healthCheck : Action HealthState :=
  if !a.config.configured then pure .unavailable
  else do
    let resp ← a.transport.get "/knowledge_base/issue_definitions"
    if failed resp || 500 ≤ resp.status then pure .unavailable
    else if resp.status = 401 ∨ resp.status = 403 then pure .degraded
    else pure .healthy

def scanBody (request : EngineRunRequest) : Json :=
  .obj
    [("urls", Json.texts request.seedUrls),
     ("scope", .obj [("include", .arr (request.seedUrls.map fun u ↦ .obj [("rule", .str u)]))]),
     ("application_logins", .arr [])]

/-- `_issue_of`. -/
def issueOf (event : Record) : Json := (Json.lookup event "issue").getD (.obj event)

def finalStatuses : List String := ["succeeded", "finished", "completed", "paused", "failed"]

def issuesOf (json : Record) : Except PyError (List Json) := do
  let issues ← iterate ((Json.get json "issue_events").orElse
    ((Json.get json "issues").orElse (.arr [])))
  pure (issues.filterMap fun
    | .obj event => some (issueOf event)
    | _ => none)

/-- The rounds of `_poll`; every round waits for a second at least. -/
def poll (scanId : String) : ℕ → ℚ → Action (List Json)
  | 0, _ => pure []
  | rounds + 1, waited =>
      if (a.maxPollSeconds : ℚ) ≤ waited then pure []
      else do
        let resp ← a.transport.get ("/scan/" ++ scanId)
        if failed resp then pure []
        else
          let status := lower ((Json.get resp.json "scan_status").orElse
            ((Json.get resp.json "status").orElse (.str ""))).pyStr
          if status ∈ finalStatuses then Effect.ofExcept (issuesOf resp.json)
          else
            let interval := max a.config.pollIntervalSeconds 1
            a.transport.sleep interval
            poll scanId rounds (waited + interval)

def executeScan (body : Json) : Action (List Json) :=
  if !a.config.configured then pure []
  else do
    let start ← a.transport.post "/scan" body
    if failed start || !(start.status = 200 || start.status = 201) then pure []
    else
      let scanId := ((Json.get start.json "scan_id").orElse
        ((Json.get start.json "id").orElse (.str ""))).pyStr
      if scanId = "" then pure [] else a.poll scanId (a.maxPollSeconds + 1) 0

/-! ## Issues -/

def severityMap : List (String × Severity) :=
  [("high", .high), ("medium", .medium), ("low", .low), ("info", .info), ("information", .info)]

def confidenceMap : List (String × Confidence) :=
  [("certain", .firm), ("firm", .firm), ("tentative", .tentative)]

def hints : List (String × String) :=
  [("cross-site scripting", "xss"), ("sql injection", "sql_injection"),
   ("os command", "command_injection"), ("path traversal", "path_traversal"),
   ("file path", "path_traversal"), ("server-side request forgery", "ssrf"),
   ("xml external", "xxe"), ("open redirect", "open_redirect"),
   ("cross-site request forgery", "csrf"), ("cleartext", "tls_weakness"),
   ("certificate", "tls_weakness"), ("cookie", "insecure_cookie"),
   ("cors", "cors_misconfiguration"), ("information disclosure", "information_disclosure"),
   ("deserialization", "insecure_deserialization")]

def cwePattern : Regex := .seq (.lit "CWE-") (.group (.some1 isDecimal))

/-- `_extract_cwes`; a number can be too long to be converted. -/
def extractCwes (issue : Record) : Except PyError (List ℤ) :=
  let raw := ((Json.get issue "vulnerability_classifications").orElse
    ((Json.get issue "cwe").orElse (.str ""))).pyStr
  (cwePattern.findAll raw.toList).mapM fun o ↦
    match parseInt (String.ofList (o.group.getD [])) with
    | some n => .ok n
    | none => .error .valueError

/-- `_evidence`. -/
def messagesOf (issue : Record) : List HttpMessage :=
  match Json.get issue "evidence" with
  | .arr items => (items.take 2).filterMap fun
      | .obj item =>
          match Json.getD item "request_response" (.obj []) with
          | .obj req => some <| .modelValidate
              { body := some ((Json.getD req "request" (.str "")).orElse (.str "")).pyStr }
          | _ => none
      | _ => none
  | _ => []

/-- The name of an issue, or of its type. -/
def nameOf (issue : Record) : Except PyError String :=
  if (Json.get issue "name").truthy then .ok (Json.get issue "name").pyStr
  else
    match Json.getD issue "issue_type" (.obj []) with
    | .obj type => .ok ((Json.get type "name").orElse (.str "Burp issue")).pyStr
    | _ => .error .attributeError

def confidenceOf (issue : Record) : Confidence :=
  (confidenceMap.lookup (lower (Json.getD issue "confidence" (.str "tentative")).pyStr)).getD
    .tentative

def reportOf : Json → Except PyError (List Report)
  | .obj issue => do
      let severity := (severityMap.lookup
        (lower (Json.getD issue "severity" (.str "info")).pyStr)).getD .info
      let confidence := confidenceOf issue
      let cwes ← extractCwes issue
      let name ← nameOf issue
      let origin := (Json.getD issue "origin" (.str "")).pyStr
      let path := (Json.getD issue "path" (.str "/")).pyStr
      let url := if origin = "" then path else origin ++ path
      let location ← locationOf "unknown" "GET" none (withScheme url)
      let vc := Taxonomy.classify cwes (guessClass hints (lower name))
      let messages := messagesOf issue
      pure
        [{ detectorId := ((Json.get issue "type_index").orElse
            ((Json.get issue "serial_number").orElse (.str name))).pyStr
           title := name
           vulnClass := vc.key
           severity := severity
           confidence := confidence
           cwe := cwes
           location := location
           description := stripHtml (Json.getD issue "description" (.str "")).pyStr
           remediation := stripHtml (Json.getD issue "remediation" (.str "")).pyStr
           evidence :=
            { kind := .httpExchange
              engineId := "burp"
              summary := "Burp reported '" ++ name ++ "' (" ++ severity.value ++ "/" ++
                confidence.value ++ ")"
              matched := if url = "" then [] else [url]
              request := messages[0]?
              response := messages[1]?
              data := [("burp_confidence",
                .str (Json.getD issue "confidence" (.str "")).pyStr)] } }]
  | _ => .error .attributeError

/-- `normalize_results`. -/
def normalize (w : World) (request : EngineRunRequest) (records : List Json) :
    Action (List Observation) :=
  normalizeRecords w ⟨"burp", id_ok⟩ a.version request reportOf records

def toEngineAdapter (w : World) : EngineAdapter History where
  metadata := pure a.metadata
  Prepared := Json
  Outcome := List Json
  Raw := List Json
  healthCheck := a.healthCheck
  prepareTarget request := pure (scanBody request)
  executeScan body := a.executeScan body
  collectResults := pure
  normalizeResults raw request := a.normalize w request raw
  cleanup _ := a.transport.close

end BurpAdapter

end Vantage.Adapters.External
