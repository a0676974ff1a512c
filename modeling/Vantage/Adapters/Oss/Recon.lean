import Vantage.Adapters.Oss.Base

/-!
# subfinder, dnsx, tlsx and Gitleaks
-/

namespace Vantage.Adapters.Oss

open Text Engines Findings

def collectJsonl (w : World) (sandbox : Option SandboxResult) :
    Except PyError (List Record × ℕ) := do
  let text ← guardOutput w sandbox
  parseJsonl w text

/-- A host on the TLS port; it is validated like any other. -/
def hostLocation (host : String) (port : ℤ) : Location :=
  .modelValidate { scheme := "https", host := host, port := port, path := "/" }

namespace Subfinder

theorem id_ok : isIdentifier "subfinder" = true := by decide

def engine : ContainerEngine where
  id := "subfinder"
  name := "subfinder"
  vendor := "ProjectDiscovery"
  homepage := "https://github.com/projectdiscovery/subfinder"
  licenseSpdx := "MIT"
  capabilities := [.discoverySubdomain]
  image := "ghcr.io/projectdiscovery/subfinder"
  binary := "subfinder"
  id_ok := id_ok

def prepareArgs (request : EngineRunRequest) : Except PyError (List String) := do
  let host ← seedHost request.seedUrls
  pure ["-oJ", "-silent", "-d", host]

def reportOf (rec : Record) : Except PyError (List Report) :=
  let host := ((Json.get rec "host").orElse ((Json.get rec "input").orElse (.str ""))).pyStr
  .ok <| if host = "" then []
    else
      [{ detectorId := "subdomain"
         title := "Subdomain discovered: " ++ host
         vulnClass := "information_disclosure"
         severity := .info
         location := hostLocation host 443
         description := "Passive enumeration found subdomain " ++ host ++ "."
         remediation := "Informational; confirm ownership and scope before testing."
         evidence :=
          { kind := .note
            engineId := engine.id
            summary := "subdomain " ++ host
            data := [("host", .str host), ("source", Json.get rec "source")] } }]

def adapter : ContainerAdapter where
  engine := engine
  format := "jsonl"
  prepareArgs := prepareArgs
  collect := collectJsonl
  normalize w version request records :=
    normalizeRecords w engine.engineId version request reportOf records

end Subfinder

namespace Dnsx

theorem id_ok : isIdentifier "dnsx" = true := by decide

def engine : ContainerEngine where
  id := "dnsx"
  name := "dnsx"
  vendor := "ProjectDiscovery"
  homepage := "https://github.com/projectdiscovery/dnsx"
  licenseSpdx := "MIT"
  capabilities := [.analysisDns]
  image := "ghcr.io/projectdiscovery/dnsx"
  binary := "dnsx"
  id_ok := id_ok

def prepareArgs (request : EngineRunRequest) : Except PyError (List String) := do
  let host ← seedHost request.seedUrls
  pure ["-json", "-silent", "-a", "-aaaa", "-cname", "-d", host]

def reportOf (rec : Record) : Except PyError (List Report) :=
  let host := (Json.getD rec "host" (.str "")).pyStr
  .ok <| if host = "" then []
    else
      [{ detectorId := "dns-record"
         title := "DNS records for " ++ host
         vulnClass := "information_disclosure"
         severity := .info
         location := hostLocation host 443
         description := "Resolved DNS records for " ++ host ++ "."
         remediation := "Informational; feeds attack-surface inventory."
         evidence :=
          { kind := .note
            engineId := engine.id
            summary := "DNS " ++ host
            data := (["a", "aaaa", "cname"].filter fun k ↦ (Json.get rec k).truthy).map fun k ↦
              (k, Json.get rec k) } }]

def adapter : ContainerAdapter where
  engine := engine
  format := "jsonl"
  prepareArgs := prepareArgs
  collect := collectJsonl
  normalize w version request records :=
    normalizeRecords w engine.engineId version request reportOf records

end Dnsx

namespace Tlsx

theorem id_ok : isIdentifier "tlsx" = true := by decide

def engine : ContainerEngine where
  id := "tlsx"
  name := "tlsx"
  vendor := "ProjectDiscovery"
  homepage := "https://github.com/projectdiscovery/tlsx"
  licenseSpdx := "MIT"
  capabilities := [.analysisTls]
  image := "ghcr.io/projectdiscovery/tlsx"
  binary := "tlsx"
  id_ok := id_ok

def prepareArgs (request : EngineRunRequest) : Except PyError (List String) := do
  let host ← seedHost request.seedUrls
  pure ["-json", "-silent", "-expired", "-self-signed", "-u", host]

/-- `_tls_obs`. -/
def tlsReport (rec : Record) (location : Location) (detectorId title : String)
    (severity : Severity) (description : String) : Report where
  detectorId := detectorId
  title := title
  vulnClass := "tls_weakness"
  severity := severity
  cwe := [295, 326]
  location := location
  description := description
  remediation := "Use a valid CA-issued certificate and disable obsolete protocols."
  evidence :=
    { kind := .tlsObservation
      engineId := engine.id
      summary := title
      data := [("tls_version", Json.get rec "tls_version"), ("cipher", Json.get rec "cipher")] }

def weakVersions : List String := ["SSL30", "TLS10", "TLS11", "SSLV3", "TLSV1", "TLSV1.1"]

def reportOf (rec : Record) : Except PyError (List Report) := do
  let host := (Json.getD rec "host" (.str "")).pyStr
  let port ← pyInt ((Json.getD rec "port" (.num 443)).orElse (.num 443))
  let location := hostLocation (if host = "" then "unknown" else host) port
  let report := tlsReport rec location
  let version := upper (Json.getD rec "tls_version" (.str "")).pyStr
  pure <|
    (if (Json.get rec "expired").truthy then
      [report "cert-expired" "TLS certificate expired" .high "The certificate is expired."]
     else []) ++
    (if (Json.get rec "self_signed").truthy then
      [report "cert-self-signed" "Self-signed TLS certificate" .medium
        "The certificate is self-signed."]
     else []) ++
    if version ∈ weakVersions then
      [report ("weak-protocol:" ++ version) ("Obsolete TLS protocol: " ++ version) .medium
        ("Server negotiated " ++ version ++ ".")]
    else []

def adapter : ContainerAdapter where
  engine := engine
  format := "jsonl"
  prepareArgs := prepareArgs
  collect := collectJsonl
  normalize w version request records :=
    normalizeRecords w engine.engineId version request reportOf records

end Tlsx

namespace Gitleaks

theorem id_ok : isIdentifier "gitleaks" = true := by decide

def engine : ContainerEngine where
  id := "gitleaks"
  name := "Gitleaks"
  vendor := "gitleaks"
  homepage := "https://github.com/gitleaks/gitleaks"
  licenseSpdx := "MIT"
  capabilities := [.analysisSecrets]
  image := "ghcr.io/gitleaks/gitleaks"
  binary := "gitleaks"
  id_ok := id_ok

def prepareArgs (_ : EngineRunRequest) : Except PyError (List String) :=
  .ok ["dir", "/work", "--report-format", "json", "--report-path", "/out/gitleaks.json",
    "--no-banner"]

/-- Values that are no objects are dropped and not counted. -/
def readReport : Json → Except PyError (List Record × ℕ)
  | .arr items => .ok (items.filterMap fun
      | .obj members => some members
      | _ => none, 0)
  | .obj members => .ok ([members], 0)
  | _ => .ok ([], 0)

def reportOf (host : String) (rec : Record) : Except PyError (List Report) :=
  let rule := ((Json.get rec "RuleID").orElse
    ((Json.get rec "Description").orElse (.str "secret"))).pyStr
  let secret := (Json.getD rec "Secret" (.str "")).pyStr
  .ok
    [{ detectorId := "gitleaks:" ++ rule
       title := "Potential exposed secret: " ++ rule
       vulnClass := "secret_exposure"
       severity := .high
       cwe := [540, 312]
       location := .modelValidate
        { scheme := "https", host := host, port := 443, path := "/", method := some "GET" }
       description := "Gitleaks matched rule '" ++ rule ++ "' in a served artifact."
       remediation := "Remove secrets from client-served content and rotate them."
       evidence :=
        { kind := .responseMatch
          engineId := engine.id
          summary := rule ++ " matched (value redacted)"
          matched := [Text.redact secret]
          data := [("file", Json.get rec "File"), ("rule", .str rule)] } }]

/-- The host is that of the request. -/
def adapter : ContainerAdapter where
  engine := engine
  format := "gitleaks.json"
  prepareArgs := prepareArgs
  collect w sandbox := parseReport w readReport (reportBlob "gitleaks.json" sandbox)
  normalize w version request records := do
    let host ← Effect.ofExcept (seedHost request.seedUrls)
    normalizeRecords w engine.engineId version request (reportOf host) records

end Gitleaks

end Vantage.Adapters.Oss
