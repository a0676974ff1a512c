import Vantage.Adapters.Native.Headers

/-!
# The rules of the header analyzer

What each detector reports of a response, and what its evidence is made of.
-/

namespace Vantage.Adapters.Native.Headers

open Text

variable {loc : Location} {res : FetchResult} {d : Detection}

/-! ## What the detectors report -/

/-- A header that is required of the response and absent from it. -/
def Lacks (res : FetchResult) (header : String) : Prop :=
  (header ≠ "strict-transport-security" ∨ startsWith (lower res.url) "https://" = true) ∧
    header ∉ res.headers.map fun h ↦ lower h.1

def cookieOf (res : FetchResult) : String := orElse (headerOr res "set-cookie" "Set-Cookie") ""

/-- Any origin is allowed, with credentials. -/
def AnyOrigin (res : FetchResult) : Prop :=
  headerOr res "access-control-allow-origin" "Access-Control-Allow-Origin" = some "*" ∧
    lower (orElse (headerOr res "access-control-allow-credentials"
      "Access-Control-Allow-Credentials") "") = "true"

theorem mem_headerFindings : d ∈ headerFindings loc res ↔
    ∃ spec ∈ requiredHeaders, Lacks res spec.header ∧ missingHeader loc res spec = d := by
  unfold headerFindings Lacks
  simp only [List.mem_map (f := missingHeader loc res), List.mem_filter, Bool.and_eq_true,
    Bool.or_eq_true, decide_eq_true_eq, Bool.not_eq_true', ne_eq, and_assoc,
    ← Bool.not_eq_true, List.contains_iff_mem]

theorem cookieFindings_eq_nil_iff (loc : Location) : cookieFindings loc res = [] ↔
    cookieOf res = "" ∨ missingFlags (cookieOf res) = [] := by
  unfold cookieFindings
  exact ite_eq_left_iff.trans (by simp [cookieOf, or_iff_not_imp_left])

theorem of_mem_cookieFindings (hd : d ∈ cookieFindings loc res) :
    d.detectorId = "cookie-flags" ∧ d.vulnClass = "insecure_cookie" := by
  dsimp only [cookieFindings] at hd
  split at hd
  · exact absurd hd List.not_mem_nil
  · rw [List.mem_singleton.mp hd]
    exact ⟨rfl, rfl⟩

theorem corsFindings_eq_nil_iff (loc : Location) : corsFindings loc res = [] ↔ ¬ AnyOrigin res := by
  unfold corsFindings
  exact ite_eq_right_iff.trans (by simp [AnyOrigin])

theorem of_mem_corsFindings (hd : d ∈ corsFindings loc res) :
    d.detectorId = "cors-wildcard-credentials" ∧ d.vulnClass = "cors_misconfiguration" := by
  dsimp only [corsFindings] at hd
  split at hd
  · rw [List.mem_singleton.mp hd]
    exact ⟨rfl, rfl⟩
  · exact absurd hd List.not_mem_nil

theorem of_mem_bannerFindings (hd : d ∈ bannerFindings loc res) :
    d.detectorId ∈ bannerHeaders.map (fun h ↦ "version-banner:" ++ h.1) ∧
      d.vulnClass = "information_disclosure" := by
  obtain ⟨⟨header, title⟩, hmem, hbanner⟩ := List.mem_filterMap.mp hd
  dsimp only at hbanner
  split at hbanner
  · obtain rfl := Option.some.inj hbanner
    exact ⟨List.mem_map.mpr ⟨_, hmem, rfl⟩, rfl⟩
  · exact absurd hbanner (by simp)

theorem of_mem_secretFindings (hd : d ∈ secretFindings loc res) :
    d.detectorId ∈ secretPatterns.map (fun p ↦ "secret:" ++ p.1) ∧
      d.vulnClass = "secret_exposure" := by
  obtain ⟨⟨name, pattern⟩, hmem, hsecret⟩ := List.mem_filterMap.mp hd
  obtain ⟨o, -, rfl⟩ := Option.map_eq_some_iff.mp hsecret
  exact ⟨List.mem_map.mpr ⟨_, hmem, rfl⟩, rfl⟩

theorem mem_findings : d ∈ findings loc res ↔
    d ∈ headerFindings loc res ∨ d ∈ cookieFindings loc res ∨ d ∈ corsFindings loc res ∨
      d ∈ bannerFindings loc res ∨ d ∈ secretFindings loc res := by
  simp only [findings, List.mem_append, or_assoc]

/-! ## Evidence -/

theorem accepted_of_summary {ev : RawEvidence} (hev : d.evidence = ev)
    (hengine : ev.engineId = engine.id) (hsummary : ev.summary.length ≤ maxSummary) :
    d.Accepted := by
  rw [Detection.Accepted, hev, hengine]
  exact ⟨id_ok, hsummary⟩

theorem accepted_of_mem_headerFindings (hd : d ∈ headerFindings loc res) : d.Accepted := by
  have hall : ∀ spec ∈ requiredHeaders, (spec.header ++ " absent").length ≤ maxSummary := by decide
  obtain ⟨spec, hspec, -, rfl⟩ := mem_headerFindings.mp hd
  exact accepted_of_summary rfl rfl (hall spec hspec)

theorem length_missingFlags (cookie : String) :
    ("Set-Cookie missing " ++ reprTexts (missingFlags cookie)).length ≤ maxSummary := by
  unfold missingFlags
  cases hsecure : contains (lower cookie) "secure" <;>
    cases hhttponly : contains (lower cookie) "httponly" <;>
      cases hsamesite : contains (lower cookie) "samesite" <;>
        simp only [hsecure, hhttponly, hsamesite, List.filter, Bool.not_true, Bool.not_false] <;>
          decide

theorem accepted_of_mem_cookieFindings (hd : d ∈ cookieFindings loc res) : d.Accepted := by
  dsimp only [cookieFindings] at hd
  split at hd
  · exact absurd hd List.not_mem_nil
  · obtain rfl := List.mem_singleton.mp hd
    exact accepted_of_summary rfl rfl (length_missingFlags _)

theorem accepted_of_mem_corsFindings (hd : d ∈ corsFindings loc res) : d.Accepted := by
  have hsummary : "ACAO=* with credentials=true".length ≤ maxSummary := by decide
  dsimp only [corsFindings] at hd
  split at hd
  · obtain rfl := List.mem_singleton.mp hd
    exact accepted_of_summary rfl rfl hsummary
  · exact absurd hd List.not_mem_nil

theorem accepted_of_mem_secretFindings (hd : d ∈ secretFindings loc res) : d.Accepted := by
  have hall : ∀ name ∈ secretPatterns.map Prod.fst,
      (name ++ " pattern matched (value redacted)").length ≤ maxSummary := by decide
  obtain ⟨⟨name, pattern⟩, hmem, hsecret⟩ := List.mem_filterMap.mp hd
  obtain ⟨o, -, rfl⟩ := Option.map_eq_some_iff.mp hsecret
  exact accepted_of_summary rfl rfl (hall name (List.mem_map_of_mem hmem))

/-- A header with a version in its value. -/
def Discloses (res : FetchResult) (header title : String) : Prop :=
  orElse (headerOr res header title) "" ≠ "" ∧
    (versionBanner.search (orElse (headerOr res header title) "").toList).isSome

theorem mem_bannerFindings : d ∈ bannerFindings loc res ↔ ∃ h ∈ bannerHeaders,
    Discloses res h.1 h.2 ∧ banner loc h.1 (orElse (headerOr res h.1 h.2) "") = d := by
  simp only [bannerFindings, List.mem_filterMap, Option.ite_none_right_eq_some, Option.some.injEq,
    Discloses]

theorem accepted_banner {header value : String} : (banner loc header value).Accepted ↔
    (header ++ ": " ++ value).length ≤ maxSummary := and_iff_right id_ok

/-- All evidence is accepted but that of banners that are too long. -/
theorem accepted_findings_iff : (∀ d ∈ findings loc res, d.Accepted) ↔
    ∀ h ∈ bannerHeaders, Discloses res h.1 h.2 →
      (h.1 ++ ": " ++ orElse (headerOr res h.1 h.2) "").length ≤ maxSummary := by
  constructor
  · intro hall h hh hdiscloses
    refine accepted_banner.mp (hall (banner loc h.1 _) (mem_findings.mpr ?_))
    exact Or.inr (Or.inr (Or.inr (Or.inl (mem_bannerFindings.mpr ⟨h, hh, hdiscloses, rfl⟩))))
  · intro hshort d hd
    rcases mem_findings.mp hd with hd | hd | hd | hd | hd
    · exact accepted_of_mem_headerFindings hd
    · exact accepted_of_mem_cookieFindings hd
    · exact accepted_of_mem_corsFindings hd
    · obtain ⟨h, hh, hdiscloses, rfl⟩ := mem_bannerFindings.mp hd
      exact accepted_banner.mpr (hshort h hh hdiscloses)
    · exact accepted_of_mem_secretFindings hd

/-! ## A request for one page -/

theorem pageCapabilities_ne : [Capability.auditPassive] ≠ [] := List.cons_ne_nil _ _

theorem pageSeeds_ne : ["https://app.example/"] ≠ [] := List.cons_ne_nil _ _

theorem pageRate_pos : (0 : ℚ) < 10 := by norm_num

theorem pageConcurrency_pos : 1 ≤ 4 := by decide

def pageRequest : EngineRunRequest where
  runId := "r"
  scanId := "s"
  tenantId := "t"
  engineId := "vantage-headers"
  capabilities := [.auditPassive]
  seedUrls := ["https://app.example/"]
  scopeRules := [demoHost.dump]
  maxRequestsPerSecond := 10
  maxConcurrency := 4
  options := []
  proxyUrl := none
  engineId_ok := id_ok
  capabilities_ne := pageCapabilities_ne
  seedUrls_ne := pageSeeds_ne
  rate_pos := pageRate_pos
  concurrency_pos := pageConcurrency_pos

end Vantage.Adapters.Native.Headers
