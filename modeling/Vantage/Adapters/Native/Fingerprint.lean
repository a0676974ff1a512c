import Vantage.Adapters.Native.Headers

/-!
# Technology fingerprints and the validator engine

Signatures look at a header, a cookie and the body, in this order. The
validator engine is there to be planned and reports nothing.
-/

namespace Vantage.Adapters.Native

open Text

namespace Fingerprint

theorem id_ok : isIdentifier "vantage-fingerprint" = true := by decide

def engine : NativeEngine where
  id := "vantage-fingerprint"
  name := "Vantage Technology Fingerprint"
  capabilities := [.fingerprintTech]
  id_ok := id_ok

/-- Patterns ignore the case of letters. -/
structure Signature where
  technology : String
  category : String
  header : Option (String × Regex) := none
  cookie : Option String := none
  body : Option Regex := none

def isHex (c : Char) : Bool := isAsciiDigit c || ('a' ≤ c && c ≤ 'f') || ('A' ≤ c && c ≤ 'F')

def text (s : String) : Regex := .litIgnoringCase s

def signatures : List Signature :=
  [{ technology := "nginx", category := "server", header := some ("server", text "nginx") },
   { technology := "Apache httpd", category := "server", header := some ("server", text "Apache") },
   { technology := "Microsoft IIS", category := "server", header := some ("server", text "IIS") },
   { technology := "PHP", category := "language", header := some ("x-powered-by", text "PHP") },
   { technology := "ASP.NET", category := "framework"
     header := some ("x-powered-by", text "ASP.NET") },
   { technology := "Express", category := "framework"
     header := some ("x-powered-by", text "Express") },
   { technology := "Django", category := "framework", cookie := some "csrftoken" },
   { technology := "Laravel", category := "framework", cookie := some "laravel_session" },
   { technology := "WordPress", category := "cms"
     body := some (.alt (text "/wp-content/")
      (text "<meta name=\"generator\" content=\"WordPress")) },
   { technology := "Drupal", category := "cms", header := some ("x-generator", text "Drupal") },
   { technology := "Cloudflare", category := "cdn", header := some ("server", text "cloudflare") },
   { technology := "React", category := "framework"
     body := some (.alt (text "data-reactroot") (text "__REACT_DEVTOOLS_GLOBAL_HOOK__")) },
   { technology := "Vue.js", category := "framework"
     body := some (.alt (.seq (text "data-v-") (.rep isHex 8 (some 8))) (text "__VUE__")) },
   { technology := "Angular", category := "framework", body := some (text "ng-version=\"") },
   { technology := "Next.js", category := "framework"
     body := some (.alt (text "/_next/static/") (text "__NEXT_DATA__")) }]

/-- The value of a header under its name in lower case; a later header replaces an earlier one. -/
def lowered (res : FetchResult) (name : String) : String :=
  ((res.headers.reverse.find? fun h ↦ lower h.1 = name).map Prod.snd).getD ""

def headerMatch (res : FetchResult) : Option (String × Regex) → Option String
  | none => none
  | some (header, pattern) =>
      let value := lowered res header
      if value ≠ "" ∧ (pattern.search value.toList).isSome then some (header ++ ": " ++ value)
      else none

def cookieMatch (res : FetchResult) : Option String → Option String
  | none => none
  | some cookie =>
      if contains (lower (lowered res "set-cookie")) (lower cookie) then some ("cookie:" ++ cookie)
      else none

def bodyMatch (res : FetchResult) : Option Regex → Option String
  | none => none
  | some pattern => if (pattern.search res.body.toList).isSome then some "body-marker" else none

def matchedValue (res : FetchResult) (sig : Signature) : Option String :=
  ((headerMatch res sig.header).or (cookieMatch res sig.cookie)).or (bodyMatch res sig.body)

def detected (loc : Location) (sig : Signature) (value : String) : Detection where
  detectorId := "tech:" ++ sig.technology
  title := "Technology detected: " ++ sig.technology
  vulnClass := "information_disclosure"
  severity := .info
  cwe := [200]
  location := loc
  description := "Passive fingerprint identified " ++ sig.technology ++ " (" ++ sig.category ++ ")."
  remediation := "No action required; informational technology inventory."
  evidence :=
    { kind := .responseMatch
      engineId := engine.id
      summary := sig.technology ++ " via " ++ value
      matched := [value]
      data := [("technology", .str sig.technology), ("category", .str sig.category)] }

def findings (loc : Location) (res : FetchResult) : List Detection :=
  signatures.filterMap fun sig ↦ (matchedValue res sig).map (detected loc sig)

def analyzeSeed (w : World) (request : EngineRunRequest) (client : ScopedHttpClient)
    (url : String) : Action (List Observation) := do
  let res ← client.get w url
  if !res.ok then pure []
  else
    let loc ← Effect.ofExcept (locationOf res.url)
    newObservations w engine request (findings loc res)

def adapter : NativeAdapter where
  engine := engine
  analyze w request client := Effect.collect (analyzeSeed w request client) request.seedUrls

end Fingerprint

namespace Validator

theorem id_ok : isIdentifier "vantage-validator" = true := by decide

def adapter : NativeAdapter where
  engine :=
    { id := "vantage-validator"
      name := "Vantage Validation Engine"
      capabilities := [.validation]
      id_ok := id_ok }
  analyze _ _ _ := pure []

end Validator

end Vantage.Adapters.Native
