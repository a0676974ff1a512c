import Vantage.Adapters.Oss.Base

/-!
# ffuf, feroxbuster, Katana and httpx

Discovered resources, endpoints and technologies are reported for the
inventory of the attack surface.
-/

namespace Vantage.Adapters.Oss

open Text Engines Findings

/-- `str(int(request.max_requests_per_second))`; rates are positive. -/
def rateArg (request : EngineRunRequest) : String := toString request.maxRequestsPerSecond.floor

/-- The proxy is an argument when there is one. -/
def proxyArgs (flag : String) (request : EngineRunRequest) : List String :=
  if orElse request.proxyUrl "" = "" then [] else [flag, orElse request.proxyUrl ""]

def wordlist (request : EngineRunRequest) : String :=
  (Json.getD request.options "wordlist" (.str "/wordlists/common.txt")).pyStr

/-! ## Content discovery -/

def interesting : List ℤ := [200, 201, 204, 301, 302, 307, 401, 403, 405]

/-- Both content discovery tools report the resources with a status of interest. -/
def resourceReport (engine : ContainerEngine) (noHost lengthKey : String) (rec : Record) :
    Except PyError (List Report) := do
  let url := (Json.getD rec "url" (.str "")).pyStr
  let status ← pyInt ((Json.getD rec "status" (.num 0)).orElse (.num 0))
  if url = "" ∨ status ∉ interesting then pure []
  else
    let location ← locationOf noHost "GET" none url
    pure
      [{ detectorId := "content:" ++ toString status
         title := "Discovered resource (" ++ toString status ++ "): " ++ location.path
         vulnClass := "information_disclosure"
         severity := if status ∈ [401, 403] then .low else .info
         location := location
         description := engine.name ++ " discovered " ++ url ++ " with status " ++
          toString status ++ "."
         remediation := "Review whether this resource should be publicly reachable."
         evidence :=
          { kind := .httpExchange
            engineId := engine.id
            summary := toString status ++ " " ++ url
            matched := [url]
            data := [("status", .num status), ("length", Json.get rec lengthKey)] } }]

namespace Ffuf

theorem id_ok : isIdentifier "ffuf" = true := by decide

def engine : ContainerEngine where
  id := "ffuf"
  name := "ffuf"
  vendor := "joohoi"
  homepage := "https://github.com/ffuf/ffuf"
  licenseSpdx := "MIT"
  capabilities := [.discoveryContent]
  image := "ghcr.io/ffuf/ffuf"
  binary := "ffuf"
  id_ok := id_ok

def prepareArgs (request : EngineRunRequest) : Except PyError (List String) :=
  .ok <| ["-u", rstrip (request.seedUrls.head request.seedUrls_ne) '/' ++ "/FUZZ",
      "-w", wordlist request, "-of", "json", "-o", "/out/ffuf.json",
      "-rate", rateArg request, "-t", toString request.maxConcurrency,
      "-mc", join "," (interesting.map toString)] ++ proxyArgs "-x" request

/-- The rows that are objects, and how many are not. -/
def readRows : List Json → List Record × ℕ
  | [] => ([], 0)
  | .obj row :: rows => let (records, rejected) := readRows rows; (row :: records, rejected)
  | _ :: rows => let (records, rejected) := readRows rows; (records, rejected + 1)

def readReport : Json → Except PyError (List Record × ℕ)
  | .obj doc => do
      let rows ← iterate (Json.getD doc "results" (.arr []))
      pure (readRows rows)
  | _ => .ok ([], 0)

def reportOf : Record → Except PyError (List Report) := resourceReport engine "unknown" "length"

def adapter : ContainerAdapter where
  engine := engine
  format := "ffuf.json"
  prepareArgs := prepareArgs
  collect w sandbox := parseReport w readReport (reportBlob "ffuf.json" sandbox)
  normalize w version request records :=
    normalizeRecords w engine.engineId version request reportOf records

end Ffuf

namespace Feroxbuster

theorem id_ok : isIdentifier "feroxbuster" = true := by decide

def engine : ContainerEngine where
  id := "feroxbuster"
  name := "feroxbuster"
  vendor := "epi052"
  homepage := "https://github.com/epi052/feroxbuster"
  licenseSpdx := "MIT"
  capabilities := [.discoveryContent]
  image := "ghcr.io/epi052/feroxbuster"
  binary := "feroxbuster"
  id_ok := id_ok

def prepareArgs (request : EngineRunRequest) : Except PyError (List String) :=
  .ok <| ["--silent", "--json", "--wordlist", wordlist request, "--rate-limit", rateArg request,
      "--threads", toString request.maxConcurrency,
      "--url", request.seedUrls.head request.seedUrls_ne] ++ proxyArgs "--proxy" request

/-- Response rows are kept; other values are dropped and not counted as rejected. -/
def responseLine : Json → Line
  | .obj members =>
      match Json.get members "type" with
      | .null => .record members
      | .str "response" => .record members
      | _ => .skipped
  | _ => .skipped

def reportOf : Record → Except PyError (List Report) := resourceReport engine "" "content_length"

def adapter : ContainerAdapter where
  engine := engine
  format := "feroxbuster.jsonl"
  prepareArgs := prepareArgs
  collect w sandbox := do
    let text ← guardOutput w sandbox
    parseLines w responseLine (splitLines text)
  normalize w version request records :=
    normalizeRecords w engine.engineId version request reportOf records

end Feroxbuster

/-! ## Crawling and probing -/

namespace Katana

theorem id_ok : isIdentifier "katana" = true := by decide

def engine : ContainerEngine where
  id := "katana"
  name := "Katana"
  vendor := "ProjectDiscovery"
  homepage := "https://github.com/projectdiscovery/katana"
  licenseSpdx := "MIT"
  capabilities := [.crawlHttp, .crawlBrowser, .discoveryJs]
  image := "ghcr.io/projectdiscovery/katana"
  binary := "katana"
  id_ok := id_ok

def prepareArgs (request : EngineRunRequest) : Except PyError (List String) := do
  let depth ← pyInt (Json.getD request.options "max_depth" (.num 3))
  pure <| ["-jsonl", "-silent", "-no-color", "-rate-limit", rateArg request,
      "-concurrency", toString request.maxConcurrency, "-depth", toString depth] ++
    (if (Json.get request.options "headless").truthy then ["-headless", "-no-sandbox"] else []) ++
    request.seedUrls.flatMap (fun url ↦ ["-u", url]) ++ proxyArgs "-proxy" request

/-- The endpoint and the method of a record. -/
def endpointOf (rec : Record) : String × String :=
  let req := (Json.get rec "request").membersOf
  (((Json.get req "endpoint").orElse ((Json.get rec "endpoint").orElse (.str ""))).pyStr,
    (Json.getD req "method" (.str "GET")).pyStr)

/-- The first record of every endpoint, given the endpoints that were seen before. -/
def unseen (seen : List String) : List Record → List (String × String)
  | [] => []
  | rec :: records =>
      let entry := endpointOf rec
      if entry.1 = "" ∨ entry.1 ∈ seen then unseen seen records
      else entry :: unseen (entry.1 :: seen) records

def reportOf (entry : String × String) : Except PyError (List Report) := do
  let location ← locationOf "" (upper entry.2) none entry.1
  if location.host = "" then pure []
  else
    pure
      [{ detectorId := "endpoint-discovered"
         title := "Endpoint discovered: " ++ location.path
         vulnClass := "information_disclosure"
         severity := .info
         location := location
         description := "Katana crawled " ++ entry.1 ++ "."
         remediation := "Informational; feeds attack-surface inventory."
         evidence :=
          { kind := .note
            engineId := engine.id
            summary := "crawled " ++ entry.2 ++ " " ++ entry.1
            data := [("url", .str entry.1), ("method", .str entry.2)] } }]

def adapter : ContainerAdapter where
  engine := engine
  format := "katana.jsonl"
  prepareArgs := prepareArgs
  collect w sandbox := do
    let text ← guardOutput w sandbox
    parseJsonl w text
  normalize w version request records :=
    normalizeRecords w engine.engineId version request reportOf (unseen [] records)

end Katana

namespace Httpx

theorem id_ok : isIdentifier "httpx" = true := by decide

def engine : ContainerEngine where
  id := "httpx"
  name := "httpx"
  vendor := "ProjectDiscovery"
  homepage := "https://github.com/projectdiscovery/httpx"
  licenseSpdx := "MIT"
  capabilities := [.reconHttp, .fingerprintTech]
  image := "ghcr.io/projectdiscovery/httpx"
  binary := "httpx"
  id_ok := id_ok

def prepareArgs (request : EngineRunRequest) : Except PyError (List String) :=
  .ok <| ["-json", "-silent", "-no-color", "-tech-detect", "-title", "-status-code",
      "-rate-limit", rateArg request, "-threads", toString request.maxConcurrency] ++
    request.seedUrls.flatMap fun url ↦ ["-u", url]

def techsOf (rec : Record) : List String :=
  match (Json.get rec "tech").orElse ((Json.get rec "technologies").orElse (.arr [])) with
  | .arr techs => techs.map Json.pyStr
  | _ => []

def techReport (rec : Record) (url : String) (location : Location) (tech : String) : Report where
  detectorId := "tech:" ++ tech
  title := "Technology detected: " ++ tech
  vulnClass := "information_disclosure"
  severity := .info
  cwe := [200]
  location := location
  description := "httpx fingerprinted " ++ tech ++ " at " ++ url ++ "."
  remediation := "Informational technology inventory."
  evidence :=
    { kind := .responseMatch
      engineId := engine.id
      summary := tech ++ " at " ++ url
      matched := [tech]
      data := [("technology", .str tech), ("status", Json.get rec "status_code")] }

def reportOf (rec : Record) : Except PyError (List Report) := do
  let url := ((Json.get rec "url").orElse ((Json.get rec "input").orElse (.str ""))).pyStr
  if url = "" then pure []
  else
    let location ← locationOf "" "GET" none url
    pure ((techsOf rec).map (techReport rec url location))

def adapter : ContainerAdapter where
  engine := engine
  format := "httpx.jsonl"
  prepareArgs := prepareArgs
  collect w sandbox := do
    let text ← guardOutput w sandbox
    parseJsonl w text
  normalize w version request records :=
    normalizeRecords w engine.engineId version request reportOf records

end Httpx

end Vantage.Adapters.Oss
