import Vantage.Adapters.Oss.Base

/-!
# OWASP ZAP
-/

namespace Vantage.Adapters.Oss.Zap

open Text Engines Findings

theorem id_ok : isIdentifier "zap" = true := by decide

def engine : ContainerEngine where
  id := "zap"
  name := "OWASP ZAP"
  vendor := "OWASP"
  homepage := "https://www.zaproxy.org"
  licenseSpdx := "Apache-2.0"
  capabilities := [.auditActive, .auditPassive, .crawlHttp]
  image := "ghcr.io/zaproxy/zaproxy"
  binary := "zap-baseline.py"
  id_ok := id_ok

def riskMap : List (String × Severity) :=
  [("0", .info), ("1", .low), ("2", .medium), ("3", .high), ("informational", .info),
   ("low", .low), ("medium", .medium), ("high", .high)]

def confMap : List (String × Confidence) :=
  [("0", .falsePositive), ("1", .tentative), ("2", .tentative), ("3", .firm), ("4", .firm)]

def hints : List (String × String) :=
  [("cross site scripting", "xss"), ("sql injection", "sql_injection"),
   ("remote os command", "command_injection"), ("path traversal", "path_traversal"),
   ("remote file inclusion", "ssrf"), ("external redirect", "open_redirect"),
   ("content security policy", "missing_security_header"), ("x-frame-options", "clickjacking"),
   ("cookie", "insecure_cookie"), ("cors", "cors_misconfiguration"),
   ("information disclosure", "information_disclosure")]

/-- There is a first seed. -/
def prepareArgs (request : EngineRunRequest) : Except PyError (List String) :=
  .ok <| ["-t", request.seedUrls.head request.seedUrls_ne, "-J", "/out/zap.json", "-I", "-m", "2"] ++
    if (Json.get request.options "active").truthy then ["-a"] else []

/-! ## The report -/

/-- The alerts of a site carry the name of the site. -/
def alertsOf (host : Json) : List Json → List Record × ℕ
  | [] => ([], 0)
  | .obj alert :: alerts =>
      let (records, rejected) := alertsOf host alerts
      ((alert.filter (·.1 ≠ "_host") ++ [("_host", host)]) :: records, rejected)
  | _ :: alerts =>
      let (records, rejected) := alertsOf host alerts
      (records, rejected + 1)

def readSites : List Json → Except PyError (List Record × ℕ)
  | [] => .ok ([], 0)
  | .obj site :: sites => do
      let alerts ← iterate (Json.getD site "alerts" (.arr []))
      let (records, rejected) := alertsOf (Json.getD site "@name" (.str "")) alerts
      let (records', rejected') ← readSites sites
      pure (records ++ records', rejected + rejected')
  | _ :: sites => readSites sites

def readReport : Json → Except PyError (List Record × ℕ)
  | .obj doc => do
      let sites ← iterate (Json.getD doc "site" (.arr []))
      readSites sites
  | _ => .ok ([], 0)

/-! ## Records -/

/-- `_cwe`. -/
def cweOf (alert : Record) : Except PyError (List ℤ) := do
  let n ← intOfDigits (Json.get alert "cweid").pyStr
  match n with
  | some n => pure (if 0 < n then [n] else [])
  | none => pure []

/-- `_refs`. -/
def refsOf (alert : Record) : List String :=
  match Json.getD alert "reference" (.str "") with
  | .str ref =>
      (((splitLines (stripHtml ref)).filter fun r ↦ strip r ≠ "").map strip).take 5
  | _ => []

/-- `instances[0]` when it is an object. -/
def firstInstance (instances : Json) : Except PyError Record :=
  if !instances.truthy then .ok []
  else
    match instances with
    | .arr (.obj first :: _) => .ok first
    | .arr _ => .ok []
    | .str _ => .ok []
    | .obj _ => .error .keyError
    | _ => .error .typeError

def reportOf (alert : Record) : Except PyError (List Report) := do
  let severity := (riskMap.lookup
    (lower (Json.getD alert "riskcode" (Json.getD alert "risk" (.str "0"))).pyStr)).getD .info
  let confidence :=
    (confMap.lookup (Json.getD alert "confidence" (.str "1")).pyStr).getD .tentative
  let cwes ← cweOf alert
  let name := ((Json.get alert "name").orElse
    ((Json.get alert "alert").orElse (.str "ZAP alert"))).pyStr
  let instances := Json.getD alert "instances" (.arr [])
  let first ← firstInstance instances
  let url := ((Json.get first "uri").orElse ((Json.get alert "_host").orElse (.str ""))).pyStr
  let method := (Json.getD first "method" (.str "GET")).pyStr
  let param := Json.get first "param"
  let location ← locationOf "unknown" (upper method)
    (if param.truthy then some param.pyStr else none) (withScheme url)
  let vc := Taxonomy.classify cwes (guessClass hints (lower name))
  let count ← lenOf instances
  let evidence := Json.get first "evidence"
  pure
    [{ detectorId := ((Json.get alert "pluginid").orElse
        ((Json.get alert "alertRef").orElse (.str name))).pyStr
       title := name
       vulnClass := vc.key
       severity := severity
       confidence := confidence
       cwe := cwes
       location := location
       description := stripHtml (Json.getD alert "desc" (.str "")).pyStr
       remediation := stripHtml (Json.getD alert "solution" (.str "")).pyStr
       references := refsOf alert
       evidence :=
        { kind := .httpExchange
          engineId := engine.id
          summary := "ZAP alert '" ++ name ++ "' (" ++ severity.value ++ "/" ++
            confidence.value ++ ")"
          matched := if evidence.truthy then [evidence.pyStr] else []
          request := some (.modelValidate { method := some method, url := some url })
          data := [("pluginid", Json.get alert "pluginid"), ("count", .num count)] } }]

def adapter : ContainerAdapter where
  engine := engine
  format := "zap.json"
  prepareArgs := prepareArgs
  collect w sandbox := parseReport w readReport (reportBlob "zap.json" sandbox)
  normalize w version request records :=
    normalizeRecords w engine.engineId version request reportOf records

end Vantage.Adapters.Oss.Zap
