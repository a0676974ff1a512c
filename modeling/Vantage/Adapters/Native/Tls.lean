import Vantage.Adapters.Native.Base
import Vantage.Lib.Calendar

/-!
# TLS and certificates

The inspector opens connections of its own; the hosts are those of the seeds.
-/

namespace Vantage.Adapters.Native.Tls

open Text

theorem id_ok : isIdentifier "vantage-tls" = true := by decide

def engine : NativeEngine where
  id := "vantage-tls"
  name := "Vantage TLS Analyzer"
  capabilities := [.analysisTls]
  id_ok := id_ok

def weakProtocols : List String := ["SSLv2", "SSLv3", "TLSv1", "TLSv1.1"]

/-! ## Targets -/

/-- The host and port of a seed on a TLS scheme. -/
def targetOf (url : String) : Except PyError (Option (String × ℤ)) :=
  match Url.urlsplit url with
  | none => .error .valueError
  | some parts =>
      let host := orElse parts.hostname ""
      if lower parts.scheme ∉ ["https", "wss"] then .ok none
      else if host = "" then .ok none
      else
        match parts.port with
        | none => .error .valueError
        | some none => .ok (some (lower host, 443))
        | some (some p) => .ok (some (lower host, if p = 0 then 443 else p))

def targetsOf (urls : List String) : Except PyError (List (String × ℤ)) := do
  let found ← urls.mapM targetOf
  let sorted := found.reduceOption.dedup.insertionSort fun t t' ↦
    toLex (t.1.toList, t.2) ≤ toLex (t'.1.toList, t'.2)
  pure sorted

/-! ## Findings -/

/-- `_tls_ev`. -/
def evidenceOf (info : TlsInfo) (summary : String) : RawEvidence where
  kind := .tlsObservation
  engineId := engine.id
  summary := summary
  data := [("protocol", .str (info.protocol.getD "")), ("cipher", .str (info.cipher.getD "")),
    ("issuer_cn", .str (info.issuerCn.getD "")), ("subject_cn", .str (info.subjectCn.getD ""))]

def detection (info : TlsInfo) (detectorId title : String) (severity : Severity) (cwe : List ℤ)
    (description remediation summary : String) : Detection where
  detectorId := detectorId
  title := title
  vulnClass := "tls_weakness"
  severity := severity
  cwe := cwe
  location := .modelValidate
    { scheme := "https", host := info.host, port := info.port, path := "/", method := some "GET" }
  description := description
  remediation := remediation
  evidence := evidenceOf info summary

def protocolFindings (info : TlsInfo) : List Detection :=
  match info.protocol with
  | none => []
  | some p =>
      if p ∈ weakProtocols then
        [detection info ("weak-protocol:" ++ p) ("Obsolete TLS protocol negotiated: " ++ p) .medium
          [326, 327] ("The server negotiated " ++ p ++ ".")
          "Disable TLS < 1.2 and prefer TLS 1.3." ("protocol=" ++ p)]
      else []

/-- The whole days until the certificate ends, rounded down. -/
def expiryFindings (info : TlsInfo) (notAfter now : Time) : List Detection :=
  let days := (notAfter - now) / Calendar.microsPerDay
  let summary := "not_after=" ++ Calendar.isoText notAfter
  if days < 0 then
    [detection info "cert-expired" "TLS certificate expired" .high [295, 298]
      ("Leaf certificate expired " ++ toString (-days) ++ " day(s) ago.")
      "Renew the certificate and automate rotation." summary]
  else if days < 15 then
    [detection info "cert-expiring" "TLS certificate expiring soon" .low [295]
      ("Leaf certificate expires in " ++ toString days ++ " day(s).")
      "Renew before expiry; automate rotation." summary]
  else []

def selfSignedFindings (info : TlsInfo) : List Detection :=
  if info.selfSigned then
    [detection info "cert-self-signed" "Self-signed TLS certificate" .medium [295]
      "The leaf certificate appears self-signed (issuer == subject)."
      "Use a certificate from a trusted CA for public endpoints."
      ("issuer=" ++ info.issuerCn.getD "None")]
  else []

/-- `_evaluate`; the clock is read when there is a certificate. -/
def evaluate (w : World) (request : EngineRunRequest) (info : TlsInfo) :
    Action (List Observation) :=
  if orElse info.error "" ≠ "" then pure []
  else do
    let protocol ← newObservations w engine request (protocolFindings info)
    let expiry ← match info.notAfter with
      | none => pure []
      | some notAfter => do
          let now ← w.utcnow
          newObservations w engine request (expiryFindings info notAfter now)
    let selfSigned ← newObservations w engine request (selfSignedFindings info)
    pure (protocol ++ expiry ++ selfSigned)

def analyzeTarget (w : World) (request : EngineRunRequest) (target : String × ℤ) :
    Action (List Observation) := do
  let info ← w.handshake target.1 target.2
  evaluate w request info

def adapter : NativeAdapter where
  engine := engine
  analyze w request _ := do
    let targets ← Effect.ofExcept (targetsOf request.seedUrls)
    Effect.collect (analyzeTarget w request) targets

end Vantage.Adapters.Native.Tls
