import Vantage.Adapters.Native.Base
import Vantage.Lib.Dict
import Vantage.Lib.Regex

/-!
# The crawler

A breadth-first search from the seeds. Links lead to further pages and, like
the endpoints found in scripts, are reported.
-/

namespace Vantage.Adapters.Native.Crawler

open Text

theorem id_ok : isIdentifier "vantage-crawler" = true := by decide

def engine : NativeEngine where
  id := "vantage-crawler"
  name := "Vantage HTTP Crawler"
  capabilities := [.crawlHttp, .discoveryJs]
  id_ok := id_ok

/-! ## Patterns -/

def quote : Regex := .one (Regex.isOneOf "\"'")

def isPathChar (c : Char) : Bool := Regex.isAlnum c || Regex.isOneOf "_-./" c

def assigned : List Regex := [.many isSpace, .lit "=", .many isSpace]

def hrefPattern : Regex :=
  .ofSeq ([.alt (.litIgnoringCase "href") (.alt (.litIgnoringCase "src") (.litIgnoringCase "action"))] ++
    assigned ++ [quote, .group (.some1 (Regex.isNoneOf "\"'#>")), quote])

def jsPathPattern : Regex :=
  .ofSeq [quote, .group (.ofSeq [.lit "/", .rep isPathChar 2 none,
    .opt (.seq (.lit "?") (.many (Regex.isNoneOf "\"'")))]), quote]

def jsUrlPattern : Regex :=
  .ofSeq [quote, .group (.ofSeq [.lit "http", .opt (.lit "s"), .lit "://",
    .some1 fun c ↦ isPathChar c || Regex.isOneOf ":%?=&" c]), quote]

def scriptSrcPattern : Regex :=
  .ofSeq ([.litIgnoringCase "<script", .some1 (Regex.isNoneOf ">"), .litIgnoringCase "src"] ++
    assigned ++ [quote, .group (.some1 (Regex.isNoneOf "\"'")), quote])

/-- The first groups of all matches. -/
def groupsOf (pattern : Regex) (s : String) : List String :=
  (pattern.findAll s.toList).map fun o ↦ String.ofList (o.group.getD [])

/-! ## Extraction -/

/-- `_strip_fragment`. -/
def stripFragment (url : String) : String := String.ofList (cut '#' url.toList).1

def urljoin (base url : String) : Except PyError String :=
  match Url.urljoin base url with
  | none => .error .valueError
  | some joined => .ok joined

def skippedSchemes : List String := ["mailto:", "tel:", "javascript:", "data:"]

/-- `_extract_links`. -/
def extractLinks (base html : String) : Except PyError (List String) :=
  (((groupsOf hrefPattern html).map strip).filter fun raw ↦
    !skippedSchemes.any (startsWith (lower raw))).mapM fun raw ↦ do
      let joined ← urljoin base raw
      pure (stripFragment joined)

/-- `_extract_script_srcs`. -/
def extractScriptSrcs (base html : String) : Except PyError (List String) :=
  (groupsOf scriptSrcPattern html).mapM (urljoin base)

/-- `_extract_js_endpoints`. -/
def extractJsEndpoints (base js : String) : Except PyError (List String) := do
  let urls := (groupsOf jsUrlPattern js).map stripFragment
  let paths ← ((groupsOf jsPathPattern js).filter fun path ↦ !startsWith path "//").mapM fun path ↦ do
    let joined ← urljoin base path
    pure (stripFragment joined)
  pure (sortedSet (urls ++ paths))

def contentType (res : FetchResult) : String :=
  lower (((res.headers.find? (·.1 = "content-type")).map Prod.snd).getD "")

/-- `_looks_like_js`. -/
def looksLikeJs (url : String) (res : FetchResult) : Bool :=
  endsWith (String.ofList (cut '?' url.toList).1) ".js" ||
    contains (contentType res) "javascript" || contains (contentType res) "ecmascript"

def hostnameOf (url : String) : Except PyError (Option String) :=
  match Url.urlsplit url with
  | none => .error .valueError
  | some parts => .ok parts.hostname

/-- `_same_host`; a missing host is compared like any other. -/
def sameHost (url : String) (seeds : List String) : Except PyError Bool := do
  let host ← hostnameOf url
  let seedHosts ← seeds.mapM hostnameOf
  pure (seedHosts.contains host)

/-! ## The search -/

abbrev Discovered := Dict String String

/-- Endpoints are noted with the script that names them first. -/
def noteEndpoints (script : String) (endpoints : List String) (found : Discovered) : Discovered :=
  endpoints.foldl (fun found ep ↦ found.setDefault ep ("js:" ++ script)) found

/-- The links of a page that are new are noted, and those on a host of the seeds are queued. -/
def noteLinks (seeds : List String) (maxDepth : ℤ) (page : String) (depth : ℕ) :
    List String → Discovered → Except PyError (Discovered × List (String × ℕ))
  | [], found => .ok (found, [])
  | link :: links, found => do
      let follow ← if (depth : ℤ) < maxDepth then sameHost link seeds else .ok false
      let (found', queued) ← noteLinks seeds maxDepth page depth links
        (found.setDefault link ("html:" ++ page))
      pure (found', (if follow then [(link, depth + 1)] else []) ++ queued)

section Search

variable (w : World) (client : ScopedHttpClient) (seeds : List String) (maxDepth : ℤ)

/-- A script that a page refers to is fetched whatever its host. -/
def visitScript (found : Discovered) (src : String) : Action Discovered := do
  let js ← client.get w src
  if js.ok then
    let endpoints ← Effect.ofExcept (extractJsEndpoints src js.body)
    pure (noteEndpoints src endpoints found)
  else pure found

/-- What is found on a page, and the links that it adds to the queue. -/
def visit (page : String) (depth : ℕ) (found : Discovered) :
    Action (Discovered × List (String × ℕ)) := do
  let res ← client.get w page
  if !res.ok || !contains (contentType res) "html" then
    if res.ok && looksLikeJs page res then
      let endpoints ← Effect.ofExcept (extractJsEndpoints page res.body)
      pure (noteEndpoints page endpoints found, [])
    else pure (found, [])
  else
    let links ← Effect.ofExcept (extractLinks page res.body)
    let (found, queued) ← Effect.ofExcept (noteLinks seeds maxDepth page depth links found)
    let srcs ← Effect.ofExcept (extractScriptSrcs page res.body)
    let found ← Effect.foldl (visitScript w client) found srcs
    pure (found, queued)

/-- The page loop. A round either visits a new page or shortens the queue. -/
def crawl (maxPages : ℕ) (seen : List String) (found : Discovered) (queue : List (String × ℕ)) :
    Action Discovered :=
  match queue with
  | [] => pure found
  | (url, depth) :: queue =>
      if _h : seen.length < maxPages then
        if stripFragment url ∈ seen then crawl maxPages seen found queue
        else do
          let (found, queued) ← visit w client seeds maxDepth (stripFragment url) depth found
          crawl maxPages (stripFragment url :: seen) found (queue ++ queued)
      else pure found
termination_by (maxPages - seen.length, queue.length)
decreasing_by
  · exact Prod.Lex.right _ (Nat.lt_succ_self _)
  · exact Prod.Lex.left _ _ (by simp only [List.length_cons]; omega)

end Search

/-! ## The analysis -/

def endpoint (loc : Location) (url how : String) : Detection where
  detectorId := "endpoint-discovered"
  title := "Endpoint discovered: " ++ loc.path
  vulnClass := "information_disclosure"
  severity := .info
  cwe := []
  location := loc
  description := "Discovered endpoint " ++ url ++ " (" ++ how ++ ")."
  remediation := "Informational; feeds attack-surface inventory."
  evidence :=
    { kind := .note
      engineId := engine.id
      summary := "discovered via " ++ how
      data := [("url", .str url), ("source", .str how)] }

def reportEndpoint (w : World) (request : EngineRunRequest) (entry : String × String) :
    Action (List Observation) := do
  let loc ← Effect.ofExcept (locationOf entry.1)
  if loc.host = "" then pure []
  else newObservations w engine request [endpoint loc entry.1 entry.2]

/-- `_to_observations`, in the order of the URLs. -/
def toObservations (w : World) (request : EngineRunRequest) (found : Discovered) :
    Action (List Observation) :=
  Effect.collect (reportEndpoint w request)
    (found.entries.insertionSort fun e e' ↦ e.1 ≤ e'.1)

def defaultMaxPages : ℤ := 60

def defaultMaxDepth : ℤ := 3

def adapter : NativeAdapter where
  engine := engine
  analyze w request client := do
    let maxPages ← Effect.ofExcept
      (pyInt (Json.getD request.options "max_pages" (.num defaultMaxPages)))
    let maxDepth ← Effect.ofExcept
      (pyInt (Json.getD request.options "max_depth" (.num defaultMaxDepth)))
    let found ← crawl w client request.seedUrls maxDepth maxPages.toNat [] .empty
      (request.seedUrls.map fun u ↦ (u, 0))
    toObservations w request found

end Vantage.Adapters.Native.Crawler
