import Mathlib.Data.Set.Basic
import Vantage.Domain.Finding

/-!
# Proof bundles

A bundle carries the digest of its canonical content and, when the engine has
a key, an authentication code of it. Digest, code and the flag `signed` are no
part of the canonical content.
-/

namespace Vantage.Findings

open Text

structure ReplayStep where
  order : ℤ
  action : String
  detail : String := ""
deriving DecidableEq, Repr

structure ProofOfVulnerability where
  findingId : String
  fingerprint : String
  category : String
  verdict : String
  severity : String
  confidence : String
  corroboratingEngines : List String
  endpoint : String
  baseline : Option (List (String × Json))
  observed : Option (List (String × Json))
  differential : String
  markers : List String
  reproduction : List ReplayStep
  references : List String
  integritySha256 : String := ""
  signatureHmacSha256 : Option String := none
  signed : Bool := false

/-! ## Content of a bundle -/

def verdictFor (finding : UnifiedFinding) : String :=
  if finding.confidence = .falsePositive then "disputed"
  else if finding.confidence = .confirmed then "confirmed"
  else if 2 ≤ finding.engines.length ∨ finding.confidence = .firm then "corroborated"
  else "reported"

def pick (evidence : List Evidence) (kind : EvidenceKind) : Option Evidence :=
  evidence.find? (·.kind = kind)

/-- `HttpMessage.model_dump`. -/
def dumpMessage (m : HttpMessage) : List (String × Json) :=
  [("method", .ofOption m.method), ("url", .ofOption m.url),
    ("status", m.status.elim .null .num),
    ("headers", .obj (m.headers.map fun h ↦ (h.1, .str h.2))),
    ("body", .ofOption m.body), ("body_truncated", .bool m.bodyTruncated)]

def requestOf (ev : Option Evidence) : Option (List (String × Json)) :=
  (ev.bind Evidence.request).map dumpMessage

def responseOf (ev : Option Evidence) : Option (List (String × Json)) :=
  (ev.bind Evidence.response).map dumpMessage

def configurationCategories : List String :=
  ["missing_security_header", "insecure_cookie", "cors_misconfiguration", "clickjacking"]

def markerCategories : List String := ["xss", "open_redirect", "header_injection"]

/-- Steps that observe the behaviour again without any new payload. -/
def reproduction (finding : UnifiedFinding) (markers : List String) : List ReplayStep :=
  let url := finding.host ++ ":" ++ toString finding.port ++ finding.endpoint
  let method := orElse finding.method "GET"
  let second : ReplayStep :=
    if finding.category ∈ configurationCategories then
      ⟨2, "Inspect the response headers", "Confirm the reported header/attribute state."⟩
    else if finding.category = "tls_weakness" then
      ⟨2, "Inspect the negotiated TLS protocol and certificate", "Confirm the reported weakness."⟩
    else if finding.category ∈ markerCategories then
      let shown := if markers.isEmpty then "(see evidence)" else join ", " markers
      ⟨2, "Confirm the benign marker reflected by the application",
        "Marker(s): " ++ shown ++
          ". The marker is inert; no active payload is required to observe reflection."⟩
    else ⟨2, "Compare the observed response against the baseline", ""⟩
  [⟨1, "Send an authorized " ++ method ++ " request to " ++ url, "Within the agreed scope."⟩,
    second,
    ⟨3, "Compare against the recorded baseline",
      "The differential in this proof establishes the behaviour."⟩]

def describeDifferential (finding : UnifiedFinding) (validation : Option Evidence) : String :=
  orElse (validation.map Evidence.summary) <|
    if finding.confidence = .confirmed then
      "Validation reproduced the reported behaviour against a clean baseline."
    else if 2 ≤ finding.engines.length then
      "Independently reported by " ++ toString finding.engines.length ++ " engines: " ++
        join ", " finding.engines ++ "."
    else "Single-engine indicator; baseline differential recorded in evidence."

def dumpStep (s : ReplayStep) : Json :=
  .obj [("order", .num s.order), ("action", .str s.action), ("detail", .str s.detail)]

def ProofOfVulnerability.toDict (p : ProofOfVulnerability) : List (String × Json) :=
  [("finding_id", .str p.findingId), ("fingerprint", .str p.fingerprint),
    ("category", .str p.category), ("verdict", .str p.verdict), ("severity", .str p.severity),
    ("confidence", .str p.confidence), ("corroborating_engines", .texts p.corroboratingEngines),
    ("endpoint", .str p.endpoint), ("baseline", p.baseline.elim .null .obj),
    ("observed", p.observed.elim .null .obj), ("differential", .str p.differential),
    ("markers", .texts p.markers), ("reproduction", .arr (p.reproduction.map dumpStep)),
    ("references", .texts p.references), ("integrity_sha256", .str p.integritySha256),
    ("signature_hmac_sha256", .ofOption p.signatureHmacSha256), ("signed", .bool p.signed)]

def sealFields : List String := ["integrity_sha256", "signature_hmac_sha256", "signed"]

def canonical (p : ProofOfVulnerability) : List UInt8 :=
  Utf8.encode (Json.obj (p.toDict.filter fun field ↦ field.1 ∉ sealFields)).dumps

/-! ## Building and verifying -/

/-- The hexadecimal digests of `hashlib` and `hmac`. -/
structure Digests where
  sha256 : List UInt8 → String
  hmacSha256 : List UInt8 → List UInt8 → String
  hmac_ascii : ∀ key msg, (hmacSha256 key msg).toList.all (·.toNat < 128) = true

structure ProofEngine where
  key : Option String

/-- The constructor; `environ` is the value of `VANTAGE_EVIDENCE_KEY`. -/
def ProofEngine.new (signingKey environ : Option String) : ProofEngine := ⟨signingKey.or environ⟩

/-- The key in bytes, unless it is missing or empty. -/
def ProofEngine.secret (e : ProofEngine) : Option (List UInt8) :=
  (e.key.filter (· ≠ "")).map fun k ↦ Utf8.encode k.toList

/-- The bundle before it is sealed. -/
def draft (finding : UnifiedFinding) : ProofOfVulnerability :=
  let markers := sortedSet (finding.evidence.flatMap Evidence.matched)
  let http := pick finding.evidence .httpExchange
  let validation := pick finding.evidence .validationResult
  { findingId := finding.id
    fingerprint := finding.fingerprint
    category := finding.category
    verdict := verdictFor finding
    severity := finding.severity.value
    confidence := finding.confidence.value
    corroboratingEngines := finding.engines
    endpoint := orElse finding.method "ANY" ++ " " ++ finding.host ++ ":" ++
      toString finding.port ++ finding.endpoint
    baseline := (responseOf validation).or (requestOf http)
    observed := (responseOf http).or (responseOf (pick finding.evidence .responseMatch))
    differential := describeDifferential finding validation
    markers := markers
    reproduction := reproduction finding markers
    references := finding.references }

variable (d : Digests)

def ProofEngine.build (e : ProofEngine) (finding : UnifiedFinding) : ProofOfVulnerability :=
  let proof := draft finding
  let proof := { proof with integritySha256 := d.sha256 (canonical proof) }
  match e.secret with
  | none => proof
  | some key =>
      { proof with signatureHmacSha256 := some (d.hmacSha256 key (canonical proof)), signed := true }

/-- `hmac.compare_digest` on texts, which must be ASCII. -/
def compareDigest (a b : String) : Except PyError Bool :=
  if a.toList.all (·.toNat < 128) && b.toList.all (·.toNat < 128) then .ok (a == b)
  else .error .typeError

def ProofEngine.verify (e : ProofEngine) (proof : ProofOfVulnerability) : Except PyError Bool :=
  if d.sha256 (canonical proof) ≠ proof.integritySha256 then .ok false
  else if proof.signed then
    match e.secret, proof.signatureHmacSha256 with
    | some key, some tag => compareDigest (d.hmacSha256 key (canonical proof)) tag
    | _, _ => .ok false
  else .ok true

/-! ## What verification vouches for -/

/-- The seals are no part of the content. -/
@[simp] theorem canonical_seal (p : ProofOfVulnerability) (digest : String) (tag : Option String)
    (signed : Bool) :
    canonical { p with integritySha256 := digest, signatureHmacSha256 := tag, signed := signed } =
      canonical p := rfl

variable {d} {e : ProofEngine} {finding : UnifiedFinding} {p : ProofOfVulnerability}
  {findings : Set UnifiedFinding} {k : String}

@[simp] theorem draft_signed : (draft finding).signed = false := rfl

theorem canonical_build : canonical (e.build d finding) = canonical (draft finding) := by
  unfold ProofEngine.build
  cases e.secret <;> rfl

theorem compareDigest_self {tag : String} (h : tag.toList.all (·.toNat < 128) = true) :
    compareDigest tag tag = .ok true := by
  simp [compareDigest, h]

theorem eq_of_compareDigest {a b : String} (h : compareDigest a b = .ok true) : a = b := by
  unfold compareDigest at h
  split_ifs at h
  simpa using h

theorem verify_build : e.verify d (e.build d finding) = .ok true := by
  unfold ProofEngine.verify
  rw [canonical_build]
  cases hsecret : e.secret with
  | none => simp [ProofEngine.build, hsecret]
  | some key =>
      simp only [ProofEngine.build, hsecret, canonical_seal, ne_eq, not_true_eq_false, if_false,
        if_true]
      exact compareDigest_self (d.hmac_ascii _ _)

theorem secret_of_ne (hk : k ≠ "") : (⟨some k⟩ : ProofEngine).secret = some (Utf8.encode k.toList) := by
  simp [ProofEngine.secret, Option.filter, hk]

variable (d findings k)

/-- The contents of the bundles that were built with the key. -/
def contents : Set (List UInt8) :=
  {m | ∃ finding ∈ findings, m = canonical ((⟨some k⟩ : ProofEngine).build d finding)}

/-- A bundle with a valid code on content that was never built with the key. -/
def Forgery (p : ProofOfVulnerability) : Prop :=
  p.signatureHmacSha256 = some (d.hmacSha256 (Utf8.encode k.toList) (canonical p)) ∧
    canonical p ∉ contents d findings k

/-- `verify` vouches for this bundle only if its content was built with the key. -/
def Authentic (p : ProofOfVulnerability) : Prop :=
  (⟨some k⟩ : ProofEngine).verify d p = .ok true → canonical p ∈ contents d findings k

/-- Whatever can be presented without the key is verified only when authentic,
and what is built is verified. -/
def TamperEvident : Prop :=
  (∀ finding, (⟨some k⟩ : ProofEngine).verify d ((⟨some k⟩ : ProofEngine).build d finding) =
    .ok true) ∧
  ∀ p, ¬ Forgery d findings k p → Authentic d findings k p

variable {d findings k}

/-- A bundle that says it is signed is authentic. -/
theorem authentic_of_signed (hk : k ≠ "") (hforge : ¬ Forgery d findings k p)
    (hsigned : p.signed = true) : Authentic d findings k p := by
  intro hverify
  by_contra hnew
  unfold ProofEngine.verify at hverify
  rw [secret_of_ne hk, hsigned, if_pos rfl] at hverify
  split_ifs at hverify with hdigest
  · simp at hverify
  cases htag : p.signatureHmacSha256 with
  | none => simp [htag] at hverify
  | some tag =>
      simp only [htag] at hverify
      obtain rfl := eq_of_compareDigest hverify
      exact hforge ⟨htag, hnew⟩

/-- A bundle that says it is not signed is verified by its own digest. -/
theorem verify_of_not_signed (hsigned : p.signed = false)
    (hdigest : d.sha256 (canonical p) = p.integritySha256) : e.verify d p = .ok true := by
  simp [ProofEngine.verify, hsigned, hdigest]

/-- Without the key a bundle passes for authentic exactly when it does not say
it is signed, has the digest of its own content, and that content is new. -/
theorem authentic_iff (hk : k ≠ "") :
    (∀ finding, (⟨some k⟩ : ProofEngine).verify d ((⟨some k⟩ : ProofEngine).build d finding) =
      .ok true) ∧
    ∀ p, ¬ Forgery d findings k p →
      (Authentic d findings k p ↔
        p.signed = true ∨ d.sha256 (canonical p) ≠ p.integritySha256 ∨
          canonical p ∈ contents d findings k) := by
  refine ⟨fun _ ↦ verify_build, fun p hforge ↦ ⟨fun hauth ↦ ?_, ?_⟩⟩
  · by_cases hsigned : p.signed = true
    · exact Or.inl hsigned
    · by_cases hdigest : d.sha256 (canonical p) = p.integritySha256
      · have hverify := verify_of_not_signed (e := ⟨some k⟩) (by simpa using hsigned) hdigest
        exact Or.inr (Or.inr (hauth hverify))
      · exact Or.inr (Or.inl hdigest)
  · rintro (hsigned | hdigest | hold)
    · exact authentic_of_signed hk hforge hsigned
    · intro hverify
      simp [ProofEngine.verify, hdigest] at hverify
    · exact fun _ ↦ hold

/-! ## An edit that is not noticed -/

def demoFinding : UnifiedFinding where
  id := "f-1"
  tenantId := "t"
  scanId := "s"
  targetId := "tg"
  fingerprint := "a"
  title := "Weakness"
  category := "other"
  severity := .high
  confidence := .confirmed
  riskScore := 0
  cwe := []
  owasp := []
  host := "h.example.com"
  port := 443
  endpoint := "/q"
  method := some "GET"
  parameter := none
  affectedUrls := []
  description := ""
  remediation := ""
  references := []
  engines := ["zap"]
  detectors := []
  observationIds := []
  evidence := []
  firstSeen := 0
  lastSeen := 0

/-- The severity is lowered, the digest recomputed and the signature dropped. -/
def loweredSeverity : ProofOfVulnerability :=
  { draft demoFinding with
    severity := "low"
    integritySha256 := "00c3372f9b19c87dbc3503ad833bf92c2a37f94011166b92ebc40bb719bc484a" }

/-- The digests of the two contents under the key `secret-key`. -/
def demoDigests : Digests where
  sha256 m :=
    if m = canonical (draft demoFinding) then
      "0b4a9fbf7eadc206f6a6f9eff2c917b1c351c2781516050a346e8b1c382a605b"
    else if m = canonical loweredSeverity then
      "00c3372f9b19c87dbc3503ad833bf92c2a37f94011166b92ebc40bb719bc484a"
    else ""
  hmacSha256 _ m :=
    if m = canonical (draft demoFinding) then
      "bb18639755a7b7ae059ca46a257bc8e566063ef288dce68de377784325083773"
    else if m = canonical loweredSeverity then
      "35bf348ca274fed770b97bae98cf95127acd5d1c042e287cba3ef931880bc561"
    else ""
  hmac_ascii _ m := by split_ifs <;> decide

theorem canonical_loweredSeverity_ne : canonical loweredSeverity ≠ canonical (draft demoFinding) := by
  decide +kernel

theorem authentic_iff_demoFinding :
    (∀ finding, (⟨some "secret-key"⟩ : ProofEngine).verify demoDigests
        ((⟨some "secret-key"⟩ : ProofEngine).build demoDigests finding) = .ok true) ∧
    ∀ p, ¬ Forgery demoDigests {demoFinding} "secret-key" p →
      (Authentic demoDigests {demoFinding} "secret-key" p ↔
        p.signed = true ∨ demoDigests.sha256 (canonical p) ≠ p.integritySha256 ∨
          canonical p ∈ contents demoDigests {demoFinding} "secret-key") :=
  authentic_iff (by decide)

theorem not_tamperEvident_loweredSeverity :
    ¬ TamperEvident demoDigests {demoFinding} "secret-key" := by
  rintro ⟨-, hall⟩
  have hforge : ¬ Forgery demoDigests {demoFinding} "secret-key" loweredSeverity := by
    rintro ⟨htag, -⟩
    simp [loweredSeverity, draft] at htag
  have hdigest : demoDigests.sha256 (canonical loweredSeverity) =
      loweredSeverity.integritySha256 := by
    simp only [demoDigests, if_neg canonical_loweredSeverity_ne, if_true]
    rfl
  have hverify := verify_of_not_signed (e := ⟨some "secret-key"⟩) rfl hdigest
  obtain ⟨finding, rfl, hcontent⟩ := hall loweredSeverity hforge hverify
  exact canonical_loweredSeverity_ne (hcontent.trans canonical_build)

end Vantage.Findings
