import Vantage.Adapters.Native.Base
import Vantage.Lib.Regex

/-!
# Headers, cookies and secrets

Each seed is fetched once, and only the answer is looked at.
-/

namespace Vantage.Adapters.Native.Headers

open Text

theorem id_ok : isIdentifier "vantage-headers" = true := by decide

def engine : NativeEngine where
  id := "vantage-headers"
  name := "Vantage Security Headers Analyzer"
  capabilities := [.analysisHeaders, .analysisSecrets, .auditPassive]
  id_ok := id_ok

structure HeaderSpec where
  header : String
  severity : Severity
  remediation : String

def requiredHeaders : List HeaderSpec :=
  [⟨"strict-transport-security", .medium,
      "Send Strict-Transport-Security with a max-age of at least 31536000."⟩,
   ⟨"content-security-policy", .medium,
      "Define a restrictive Content-Security-Policy to mitigate injection classes."⟩,
   ⟨"x-content-type-options", .low, "Set X-Content-Type-Options: nosniff."⟩,
   ⟨"referrer-policy", .low,
      "Set a privacy-preserving Referrer-Policy such as strict-origin-when-cross-origin."⟩]

/-- `headers.get(name)`. -/
def headerOf (res : FetchResult) (name : String) : Option String :=
  (res.headers.find? (·.1 = name)).map Prod.snd

/-- `headers.get(name) or headers.get(other)`. -/
def headerOr (res : FetchResult) (name other : String) : Option String :=
  if orElse (headerOf res name) "" = "" then headerOf res other else headerOf res name

def missingHeader (loc : Location) (res : FetchResult) (spec : HeaderSpec) : Detection where
  detectorId := "missing-header:" ++ spec.header
  title := "Missing security header: " ++ spec.header
  vulnClass := "missing_security_header"
  severity := spec.severity
  cwe := [693]
  location := loc
  description := "The response does not set the " ++ spec.header ++ " header."
  remediation := spec.remediation
  evidence :=
    { kind := .headerObservation
      engineId := engine.id
      summary := spec.header ++ " absent"
      matched := [spec.header]
      response := some (.modelValidate
        { status := some res.status, url := some res.url, headers := res.headers }) }

def headerFindings (loc : Location) (res : FetchResult) : List Detection :=
  let present := res.headers.map fun h ↦ lower h.1
  let isHttps := startsWith (lower res.url) "https://"
  (requiredHeaders.filter fun spec ↦
    (spec.header ≠ "strict-transport-security" || isHttps) &&
      !present.contains spec.header).map (missingHeader loc res)

/-- `repr` of a list of texts. -/
def reprTexts (l : List String) : String := "[" ++ join ", " (l.map pyRepr) ++ "]"

def missingFlags (cookie : String) : List String :=
  ["secure", "httponly", "samesite"].filter fun flag ↦ !contains (lower cookie) flag

def cookieFindings (loc : Location) (res : FetchResult) : List Detection :=
  let raw := orElse (headerOr res "set-cookie" "Set-Cookie") ""
  let missing := missingFlags raw
  if raw = "" ∨ missing = [] then []
  else
    [{ detectorId := "cookie-flags"
       title := "Insecure cookie attributes: missing " ++ join ", " missing
       vulnClass := "insecure_cookie"
       severity := .low
       cwe := [614, 1004]
       location := loc
       description := "A Set-Cookie response is missing hardening attributes."
       remediation := "Set Secure, HttpOnly and SameSite on session cookies."
       evidence :=
        { kind := .headerObservation
          engineId := engine.id
          summary := "Set-Cookie missing " ++ reprTexts missing
          matched := missing } }]

def corsFindings (loc : Location) (res : FetchResult) : List Detection :=
  let acao := headerOr res "access-control-allow-origin" "Access-Control-Allow-Origin"
  let acac := orElse (headerOr res "access-control-allow-credentials"
    "Access-Control-Allow-Credentials") ""
  if acao = some "*" ∧ lower acac = "true" then
    [{ detectorId := "cors-wildcard-credentials"
       title := "CORS allows any origin with credentials"
       vulnClass := "cors_misconfiguration"
       severity := .medium
       cwe := [942]
       location := loc
       description := "Access-Control-Allow-Origin: * combined with credentials."
       remediation := "Reflect only allow-listed origins; never combine * with credentials."
       evidence :=
        { kind := .headerObservation
          engineId := engine.id
          summary := "ACAO=* with credentials=true"
          matched := ["access-control-allow-origin"] } }]
  else []

def digits : Regex := .some1 isAsciiDigit

def versionBanner : Regex :=
  .ofSeq [digits, .lit ".", digits, .opt (.seq (.lit ".") digits)]

/-- The headers that may carry a version, and their titles. -/
def bannerHeaders : List (String × String) :=
  [("server", "Server"), ("x-powered-by", "X-Powered-By"), ("x-aspnet-version", "X-Aspnet-Version")]

def banner (loc : Location) (header value : String) : Detection where
  detectorId := "version-banner:" ++ header
  title := "Version banner disclosed via " ++ header
  vulnClass := "information_disclosure"
  severity := .info
  cwe := [200]
  location := loc
  description := "The " ++ header ++ " header discloses software version '" ++ value ++ "'."
  remediation := "Suppress or genericize version banners."
  evidence :=
    { kind := .headerObservation
      engineId := engine.id
      summary := header ++ ": " ++ value
      matched := [value] }

def bannerFindings (loc : Location) (res : FetchResult) : List Detection :=
  bannerHeaders.filterMap fun (header, title) ↦
    let value := orElse (headerOr res header title) ""
    if value ≠ "" ∧ (versionBanner.search value.toList).isSome then some (banner loc header value)
    else none

/-! ## Secrets -/

def isWordDash (c : Char) : Bool := Regex.isAlnum c || c == '_' || c == '-'

def secretPatterns : List (String × Regex) :=
  [("aws_access_key_id", .seq (.lit "AKIA")
      (.rep (fun c ↦ isAsciiDigit c || Regex.isUpperAlpha c) 16 (some 16))),
   ("google_api_key", .seq (.lit "AIza") (.rep isWordDash 35 (some 35))),
   ("slack_token", .ofSeq [.lit "xox", .one (Regex.isOneOf "baprs"), .lit "-",
      .rep (fun c ↦ Regex.isAlnum c || c == '-') 10 (some 48)]),
   ("private_key_block", .ofSeq [.lit "-----BEGIN ",
      .opt (.alt (.lit "RSA ") (.alt (.lit "EC ") (.alt (.lit "OPENSSH ") (.lit "DSA ")))),
      .lit "PRIVATE KEY-----"]),
   ("jwt", .ofSeq [.lit "eyJ", .rep isWordDash 10 none, .lit ".", .rep isWordDash 10 none,
      .lit ".", .rep isWordDash 10 none]),
   ("github_pat", .seq (.lit "ghp_") (.rep Regex.isAlnum 36 (some 36)))]

def haystack (res : FetchResult) : String :=
  res.body ++ "\n" ++ join "\n" (res.headers.map fun h ↦ h.1 ++ ": " ++ h.2)

def secret (loc : Location) (name value : String) : Detection where
  detectorId := "secret:" ++ name
  title := "Potential exposed secret: " ++ name
  vulnClass := "secret_exposure"
  severity := .high
  cwe := [540, 312]
  location := loc
  description := "A value matching " ++ name ++ " was found in the response."
  remediation := "Remove secrets from client-served responses and rotate them."
  evidence :=
    { kind := .responseMatch
      engineId := engine.id
      summary := name ++ " pattern matched (value redacted)"
      matched := [redact value] }

def secretFindings (loc : Location) (res : FetchResult) : List Detection :=
  secretPatterns.filterMap fun (name, pattern) ↦
    (pattern.search (haystack res).toList).map fun o ↦ secret loc name (String.ofList o.text)

/-! ## The analysis -/

def findings (loc : Location) (res : FetchResult) : List Detection :=
  headerFindings loc res ++ cookieFindings loc res ++ corsFindings loc res ++
    bannerFindings loc res ++ secretFindings loc res

/-- What is reported for one seed. -/
def analyzeSeed (w : World) (request : EngineRunRequest) (client : ScopedHttpClient)
    (url : String) : Action (List Observation) := do
  let res ← client.get w url
  if !res.ok then pure []
  else
    let loc ← Effect.ofExcept (locationOf res.url)
    newObservations w engine request (findings loc res)

def adapter : NativeAdapter where
  engine := engine
  analyze w request client := Effect.collect (analyzeSeed w request client) request.seedUrls

end Vantage.Adapters.Native.Headers
