import Vantage.Adapters.Oss.Base

/-!
# Nuclei
-/

namespace Vantage.Adapters.Oss.Nuclei

open Text Engines Findings

theorem id_ok : isIdentifier "nuclei" = true := by decide

def engine : ContainerEngine where
  id := "nuclei"
  name := "Nuclei"
  vendor := "ProjectDiscovery"
  homepage := "https://github.com/projectdiscovery/nuclei"
  licenseSpdx := "MIT"
  capabilities := [.auditTemplates, .fingerprintTech]
  image := "ghcr.io/projectdiscovery/nuclei"
  binary := "nuclei"
  id_ok := id_ok

def severityMap : List (String × Severity) :=
  [("info", .info), ("low", .low), ("medium", .medium), ("high", .high), ("critical", .critical),
   ("unknown", .info)]

def hints : List (String × String) :=
  [("xss", "xss"), ("sqli", "sql_injection"), ("sql-injection", "sql_injection"), ("ssrf", "ssrf"),
   ("lfi", "path_traversal"), ("rce", "command_injection"), ("traversal", "path_traversal"),
   ("xxe", "xxe"), ("open-redirect", "open_redirect"), ("cors", "cors_misconfiguration"),
   ("exposure", "information_disclosure"), ("default-login", "authentication"),
   ("takeover", "security_misconfiguration")]

/-- A list option, when it is a list with an element. -/
def listArg (flag : String) : Json → List String
  | .arr (item :: items) => [flag, join "," ((item :: items).map Json.pyStr)]
  | _ => []

def prepareArgs (request : EngineRunRequest) : Except PyError (List String) :=
  .ok <| ["-jsonl", "-silent", "-no-color", "-duc",
      "-rate-limit", toString request.maxRequestsPerSecond.floor,
      "-c", toString request.maxConcurrency] ++
    listArg "-tags" (Json.get request.options "template_tags") ++
    listArg "-exclude-tags" (Json.get request.options "exclude_tags") ++
    request.seedUrls.flatMap (fun url ↦ ["-u", url]) ++
    if orElse request.proxyUrl "" = "" then [] else ["-proxy", orElse request.proxyUrl ""]

/-! ## Records -/

/-- `s.replace("cwe-", "")`. -/
def dropCwe (s : String) : String := String.ofList ((Regex.lit "cwe-").remove s.toList)

def cwesOfItems : List Json → Except PyError (List ℤ)
  | [] => .ok []
  | .null :: items => cwesOfItems items
  | item :: items => do
      let n ← intOfDigits (dropCwe (lower item.pyStr))
      let rest ← cwesOfItems items
      pure (n.toList ++ rest)

/-- `_extract_cwes`. -/
def extractCwes : Json → Except PyError (List ℤ)
  | .obj classification =>
      match (Json.get classification "cwe-id").orElse (Json.get classification "cwe") with
      | .arr items => cwesOfItems items
      | item => cwesOfItems [item]
  | _ => .ok []

/-- `_as_str_list`. -/
def asStrList : Json → List String
  | .arr items => items.map Json.pyStr
  | .str s => [s]
  | _ => []

def bodyMessage : Json → Option HttpMessage
  | .str s => some (.modelValidate { body := some s })
  | _ => none

def reportOf (rec : Record) : Except PyError (List Report) := do
  let info := (Json.get rec "info").membersOf
  let severity := (severityMap.lookup
    (lower (Json.getD info "severity" (.str "info")).pyStr)).getD .info
  let cwes ← extractCwes (Json.getD info "classification" (.obj []))
  let templateId := ((Json.get rec "template-id").orElse
    ((Json.get rec "templateID").orElse (.str "unknown"))).pyStr
  let matched := ((Json.get rec "matched-at").orElse
    ((Json.get rec "host").orElse (.str ""))).pyStr
  let location ← locationOf "unknown" "GET" none (withScheme matched)
  let name := (Json.getD info "name" (.str "")).pyStr
  let vc := Taxonomy.classify cwes (guessClass hints (lower (templateId ++ " " ++ name)))
  pure
    [{ detectorId := templateId
       title := ((Json.get info "name").orElse (.str templateId)).pyStr
       vulnClass := vc.key
       severity := severity
       cwe := cwes
       location := location
       description := (Json.getD info "description" (.str "")).pyStr
       remediation := (Json.getD info "remediation" (.str "")).pyStr
       references := asStrList (Json.get info "reference")
       evidence :=
        { kind := .httpExchange
          engineId := engine.id
          summary := "nuclei template " ++ templateId ++ " matched at " ++ matched
          matched := if matched = "" then [] else [matched]
          request := bodyMessage (Json.get rec "request")
          response := bodyMessage (Json.get rec "response")
          data := [("template_id", .str templateId)] } }]

def adapter : ContainerAdapter where
  engine := engine
  format := "nuclei.jsonl"
  prepareArgs := prepareArgs
  collect w sandbox := do
    let text ← guardOutput w sandbox
    parseJsonl w text
  normalize w version request records :=
    normalizeRecords w engine.engineId version request reportOf records

end Vantage.Adapters.Oss.Nuclei
