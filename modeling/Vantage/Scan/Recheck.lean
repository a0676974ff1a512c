import Vantage.Adapters.Native.HeaderRules
import Vantage.Lib.ExceptList
import Vantage.Scan.Prober

/-!
# Detectors and their re-check

The analyzer of headers and the strategy for configuration findings look at the
same headers with conditions of their own.
-/

namespace Vantage.Scan.Recheck

open Text Adapters Adapters.Native Adapters.Native.Headers

variable {loc : Location} {res res' : FetchResult} {d : Detection} {o : Observation}

/-! ## The rule reported again -/

def headerIds : List String := requiredHeaders.map fun spec ↦ "missing-header:" ++ spec.header

/-- The rules of banners and secrets. -/
def contentIds : List String :=
  bannerHeaders.map (fun h ↦ "version-banner:" ++ h.1) ++
    secretPatterns.map fun p ↦ "secret:" ++ p.1

/-- The detectors report the rule of the observation on the response. -/
def redetected (o : Observation) (res : FetchResult) : Bool :=
  (findings o.location res).any fun d ↦ d.detectorId = o.detectorId

theorem redetected_iff : redetected o res = true ↔
    ∃ d ∈ findings o.location res, d.detectorId = o.detectorId := by
  simp [redetected]

theorem detectorId_of_mem_contents
    (hd : d ∈ bannerFindings loc res ∨ d ∈ secretFindings loc res) :
    d.detectorId ∈ contentIds :=
  hd.elim (fun h ↦ List.mem_append_left _ (of_mem_bannerFindings h).1)
    fun h ↦ List.mem_append_right _ (of_mem_secretFindings h).1

theorem detectorId_of_mem_headerFindings (hd : d ∈ headerFindings loc res) :
    d.detectorId ∈ headerIds := by
  obtain ⟨spec, hspec, -, rfl⟩ := mem_headerFindings.mp hd
  exact List.mem_map.mpr ⟨spec, hspec, rfl⟩

theorem redetected_header {header : String}
    (hheader : ∃ spec ∈ requiredHeaders, spec.header = header)
    (ho : o.detectorId = "missing-header:" ++ header) :
    redetected o res = true ↔ Lacks res header := by
  obtain ⟨spec, hspec, rfl⟩ := hheader
  have hmem : "missing-header:" ++ spec.header ∈ headerIds := List.mem_map.mpr ⟨spec, hspec, rfl⟩
  have hother : ∀ id ∈ headerIds,
      id ∉ "cookie-flags" :: "cors-wildcard-credentials" :: contentIds := by decide
  rw [redetected_iff, ho]
  constructor
  · rintro ⟨d, hd, hid⟩
    rcases mem_findings.mp hd with hd | hd | hd | hd
    · obtain ⟨spec', -, hlacks, rfl⟩ := mem_headerFindings.mp hd
      rwa [← String.append_right_inj _ |>.mp hid]
    · exact absurd (by simp [← hid, (of_mem_cookieFindings hd).1]) (hother _ hmem)
    · exact absurd (by simp [← hid, (of_mem_corsFindings hd).1]) (hother _ hmem)
    · have hcontent := detectorId_of_mem_contents hd
      rw [hid] at hcontent
      exact absurd (List.mem_cons_of_mem _ (List.mem_cons_of_mem _ hcontent)) (hother _ hmem)
  · intro hlacks
    refine ⟨missingHeader o.location res spec, mem_findings.mpr (Or.inl ?_), rfl⟩
    exact mem_headerFindings.mpr ⟨spec, hspec, hlacks, rfl⟩

theorem redetected_cookie (ho : o.detectorId = "cookie-flags") :
    redetected o res = true ↔ cookieOf res ≠ "" ∧ missingFlags (cookieOf res) ≠ [] := by
  have hother : "cookie-flags" ∉ headerIds ++ "cors-wildcard-credentials" :: contentIds := by decide
  rw [redetected_iff, ho, ← not_or, ← cookieFindings_eq_nil_iff o.location]
  constructor
  · rintro ⟨d, hd, hid⟩
    rcases mem_findings.mp hd with hd | hd | hd | hd
    · have hheader := detectorId_of_mem_headerFindings hd
      rw [hid] at hheader
      exact absurd (List.mem_append_left _ hheader) hother
    · exact List.ne_nil_of_mem hd
    · exact absurd (by simp [← hid, (of_mem_corsFindings hd).1]) hother
    · have hcontent := detectorId_of_mem_contents hd
      rw [hid] at hcontent
      exact absurd (List.mem_append_right _ (List.mem_cons_of_mem _ hcontent)) hother
  · intro hne
    obtain ⟨d, hd⟩ := List.exists_mem_of_ne_nil _ hne
    exact ⟨d, mem_findings.mpr (Or.inr (Or.inl hd)), (of_mem_cookieFindings hd).1⟩

theorem redetected_cors (ho : o.detectorId = "cors-wildcard-credentials") :
    redetected o res = true ↔ AnyOrigin res := by
  have hother : "cors-wildcard-credentials" ∉ headerIds ++ "cookie-flags" :: contentIds := by decide
  rw [redetected_iff, ho, ← not_not (a := AnyOrigin res),
    ← corsFindings_eq_nil_iff o.location]
  constructor
  · rintro ⟨d, hd, hid⟩
    rcases mem_findings.mp hd with hd | hd | hd | hd
    · have hheader := detectorId_of_mem_headerFindings hd
      rw [hid] at hheader
      exact absurd (List.mem_append_left _ hheader) hother
    · exact absurd (by simp [← hid, (of_mem_cookieFindings hd).1]) hother
    · exact List.ne_nil_of_mem hd
    · have hcontent := detectorId_of_mem_contents hd
      rw [hid] at hcontent
      exact absurd (List.mem_append_right _ (List.mem_cons_of_mem _ hcontent)) hother
  · intro hne
    obtain ⟨d, hd⟩ := List.exists_mem_of_ne_nil _ hne
    exact ⟨d, mem_findings.mpr (Or.inr (Or.inr (Or.inl hd))), (of_mem_corsFindings hd).1⟩

/-! ## The condition of the strategy -/

/-- What the prober makes of a fetch. -/
def probeOf (res : FetchResult) : ProbeResponse := ⟨res.status, res.headers, res.body, res.url⟩

theorem conditionHolds_header {header : String}
    (hheader : ∃ spec ∈ requiredHeaders, spec.header = header)
    (hclass : o.vulnClass = "missing_security_header")
    (hmatched : o.evidence.flatMap Evidence.matched = [header]) :
    ConfigReverify.conditionHolds o (probeOf res) = true ↔
      header ∉ res.headers.map fun h ↦ lower h.1 := by
  have hnames : ∀ spec ∈ requiredHeaders,
      ConfigReverify.isHeaderName spec.header = true ∧ lower spec.header = spec.header := by decide
  obtain ⟨spec, hspec, rfl⟩ := hheader
  obtain ⟨hname, hlower⟩ := hnames spec hspec
  have hexpected : ConfigReverify.expectedHeader o = some spec.header := by
    simp [ConfigReverify.expectedHeader, hmatched, hname, hlower]
  simp [ConfigReverify.conditionHolds, hclass, hexpected, probeOf]

theorem lookup_eq_find (headers : List (String × String)) (name : String) :
    headers.lookup name = (headers.find? (·.1 = name)).map Prod.snd := by
  induction headers with
  | nil => rfl
  | cons h headers ih =>
      by_cases hname : h.1 = name
      · rw [List.lookup_cons, hname, beq_self_eq_true, List.find?_cons_of_pos (by simpa using hname)]
        rfl
      · have hname' : (name == h.1) = false := beq_eq_false_iff_ne.mpr (Ne.symm hname)
        rw [List.lookup_cons, hname', ih, List.find?_cons_of_neg (by simpa using hname)]

theorem header_eq (name : String) :
    ConfigReverify.header res.headers name = orElse (headerOf res name) "" := by
  rw [ConfigReverify.header, lookup_eq_find, ← headerOf]
  cases headerOf res name with
  | none => rfl
  | some value =>
      change value = if value = "" then "" else value
      split_ifs with hempty
      · exact hempty
      · rfl

theorem conditionHolds_cookie (hclass : o.vulnClass = "insecure_cookie") :
    ConfigReverify.conditionHolds o (probeOf res) = true ↔
      contains (lower (cookieOf res)) "secure" = false ∨
        contains (lower (cookieOf res)) "httponly" = false := by
  have hcookie : cookieOf res =
      if orElse (headerOf res "set-cookie") "" = "" then orElse (headerOf res "Set-Cookie") ""
      else orElse (headerOf res "set-cookie") "" := by
    unfold cookieOf headerOr
    split_ifs <;> rfl
  simp only [ConfigReverify.conditionHolds, hclass, probeOf, header_eq, ← hcookie, if_true]
  simp

theorem conditionHolds_cors (hclass : o.vulnClass = "cors_misconfiguration") :
    ConfigReverify.conditionHolds o (probeOf res) = true ↔
      "access-control-allow-origin" ∈ res.headers.map fun h ↦ lower h.1 := by
  simp [ConfigReverify.conditionHolds, hclass, probeOf]

theorem mem_names_of_anyOrigin (h : AnyOrigin res) :
    "access-control-allow-origin" ∈ res.headers.map fun h ↦ lower h.1 := by
  have hof : ∀ name, lower name = "access-control-allow-origin" → headerOf res name = some "*" →
      "access-control-allow-origin" ∈ res.headers.map fun h ↦ lower h.1 := by
    intro name hlower hvalue
    obtain ⟨header, hfind, -⟩ := Option.map_eq_some_iff.mp hvalue
    have hname : header.1 = name := by simpa using List.find?_some hfind
    exact List.mem_map.mpr ⟨header, List.mem_of_find?_eq_some hfind, by rw [hname, hlower]⟩
  have horigin := h.1
  unfold headerOr at horigin
  split_ifs at horigin
  · exact hof _ (by decide) horigin
  · exact hof _ (by decide) horigin

/-! ## Agreement -/

/-- The classes whose observations are checked again. -/
def classes : List String :=
  ["missing_security_header", "insecure_cookie", "cors_misconfiguration"]

/-- The verdict on a response is that of the detectors. -/
def Agrees (o : Observation) (res : FetchResult) : Prop :=
  ∀ (σ : Type) (prober : Prober σ) (s s' : σ),
    prober.get (urlOf o) s = (.ok (probeOf res), s') →
      ∃ result, ConfigReverify.validate o prober s = (.ok result, s') ∧
        (result.verdict, result.confidence) =
          if redetected o res then (.confirmed, .confirmed) else (.refuted, .falsePositive)

theorem validate_spec {σ : Type} {prober : Prober σ} {s s' : σ} {resp : ProbeResponse}
    (hhandles : ConfigReverify.handles o = true)
    (hget : prober.get (urlOf o) s = (.ok resp, s')) :
    ∃ result, ConfigReverify.validate o prober s = (.ok result, s') ∧
      (result.verdict, result.confidence) =
        if ConfigReverify.conditionHolds o resp then (.confirmed, .confirmed)
        else (.refuted, .falsePositive) := by
  obtain ⟨ev, hev⟩ := exists_configReverify_evidence hhandles resp
    (ConfigReverify.conditionHolds o resp)
  unfold ConfigReverify.validate
  rw [Effect.bind_of_ok hget, Effect.bind_of_ok (Effect.ofExcept_of_ok hev s')]
  cases ConfigReverify.conditionHolds o resp <;> exact ⟨_, rfl, rfl⟩

theorem agrees_iff_eq (hhandles : ConfigReverify.handles o = true) :
    Agrees o res ↔ ConfigReverify.conditionHolds o (probeOf res) = redetected o res := by
  constructor
  · intro hagrees
    obtain ⟨result, hrun, hverdict⟩ :=
      hagrees Unit ⟨fun _ s ↦ (.ok (probeOf res), s)⟩ () () rfl
    obtain ⟨result', hrun', hverdict'⟩ :=
      validate_spec hhandles (rfl : (⟨fun _ s ↦ (.ok (probeOf res), s)⟩ : Prober Unit).get
        (urlOf o) () = (.ok (probeOf res), ()))
    obtain rfl := (Effect.ok_unique hrun hrun').1
    rw [hverdict] at hverdict'
    revert hverdict'
    cases ConfigReverify.conditionHolds o (probeOf res) <;> cases redetected o res <;> simp
  · intro heq σ prober s s' hget
    rw [← heq]
    exact validate_spec hhandles hget

/-- A cookie that lacks SameSite alone is not noticed, no cookie at all is taken for an insecure
one, and any CORS header for one that allows any origin with credentials. -/
def Rechecked (o : Observation) (res : FetchResult) : Prop :=
  (o.vulnClass = "insecure_cookie" →
      cookieOf res ≠ "" ∧ missingFlags (cookieOf res) ≠ ["samesite"]) ∧
    (o.vulnClass = "cors_misconfiguration" →
      "access-control-allow-origin" ∉ (res.headers.map fun h ↦ lower h.1) ∨ AnyOrigin res)

section Produced

variable {w : World} {request : EngineRunRequest} {obs : List Observation} {h h' : History}

/-- The headers and the cookie and CORS rules are reported with a class of their own. -/
theorem of_produced (hrun : newObservations w engine request (findings loc res) h = (.ok obs, h'))
    (hmem : o ∈ obs) (hclass : o.vulnClass ∈ classes) :
    (∃ spec ∈ requiredHeaders, Lacks res spec.header ∧ o.vulnClass = "missing_security_header" ∧
        o.detectorId = "missing-header:" ++ spec.header ∧
        o.evidence.flatMap Evidence.matched = [spec.header]) ∨
      (o.vulnClass = "insecure_cookie" ∧ o.detectorId = "cookie-flags") ∨
      o.vulnClass = "cors_misconfiguration" ∧ o.detectorId = "cors-wildcard-credentials" := by
  obtain ⟨d, hd, hreports⟩ := returns_newObservations h obs h' hrun o hmem
  rw [hreports.vulnClass, hreports.detectorId]
  rw [hreports.vulnClass] at hclass
  rcases mem_findings.mp hd with hd | hd | hd | hd | hd
  · obtain ⟨spec, hspec, hlacks, rfl⟩ := mem_headerFindings.mp hd
    obtain ⟨ev, hev, hevidence⟩ := hreports.evidence
    refine Or.inl ⟨spec, hspec, hlacks, rfl, rfl, ?_⟩
    unfold Evidence.modelValidate at hev
    split at hev
    · rw [hevidence, ← Except.ok.inj hev]
      rfl
    · exact absurd hev (by simp)
  · exact Or.inr (Or.inl (of_mem_cookieFindings hd).symm)
  · exact Or.inr (Or.inr (of_mem_corsFindings hd).symm)
  · rw [(of_mem_bannerFindings hd).2] at hclass
    exact absurd hclass (by decide)
  · rw [(of_mem_secretFindings hd).2] at hclass
    exact absurd hclass (by decide)

theorem flags_iff {cookie : String} :
    ((contains (lower cookie) "secure" = false ∨ contains (lower cookie) "httponly" = false) ↔
        cookie ≠ "" ∧ missingFlags cookie ≠ []) ↔
      cookie ≠ "" ∧ missingFlags cookie ≠ ["samesite"] := by
  by_cases hnone : cookie = ""
  · have hinsecure : contains (lower "") "secure" = false := by decide
    simp [hnone, hinsecure]
  · unfold missingFlags
    cases hsecure : contains (lower cookie) "secure" <;>
      cases hhttponly : contains (lower cookie) "httponly" <;>
        cases hsamesite : contains (lower cookie) "samesite" <;>
          simp [hnone, hsecure, hhttponly, hsamesite]

/-- The re-check of an observation agrees with the detectors exactly on these responses. -/
theorem agrees_iff (hrun : newObservations w engine request (findings loc res) h = (.ok obs, h'))
    (hmem : o ∈ obs) (hclass : o.vulnClass ∈ classes) (hurl : res'.url = res.url) :
    Agrees o res' ↔ Rechecked o res' := by
  have hhandles : ConfigReverify.handles o = true := by
    have hall : ∀ c ∈ classes, ConfigReverify.categories.contains c = true := by decide
    exact hall _ hclass
  rw [agrees_iff_eq hhandles, Bool.eq_iff_iff, Rechecked]
  rcases of_produced hrun hmem hclass with
    ⟨spec, hspec, hlacks, hvuln, hid, hmatched⟩ | ⟨hvuln, hid⟩ | ⟨hvuln, hid⟩
  · -- the response is for the same URL, so the header is required of it as well
    have hrequired := hlacks.1
    rw [← hurl] at hrequired
    rw [conditionHolds_header ⟨spec, hspec, rfl⟩ hvuln hmatched,
      redetected_header ⟨spec, hspec, rfl⟩ hid]
    refine iff_of_true ⟨fun habsent ↦ ⟨hrequired, habsent⟩, And.right⟩ ⟨?_, ?_⟩
    · exact fun hcookie ↦ absurd (hvuln.symm.trans hcookie) (by decide)
    · exact fun hcors ↦ absurd (hvuln.symm.trans hcors) (by decide)
  · rw [conditionHolds_cookie hvuln, redetected_cookie hid, flags_iff]
    simp [hvuln]
  · rw [conditionHolds_cors hvuln, redetected_cors hid]
    simp only [hvuln, forall_const, String.reduceEq, IsEmpty.forall_iff, true_and]
    constructor
    · intro hiff
      by_cases hname : "access-control-allow-origin" ∈ res'.headers.map fun h ↦ lower h.1
      · exact Or.inr (hiff.mp hname)
      · exact Or.inl hname
    · rintro (hname | hany)
      · exact iff_of_false hname fun hany ↦ hname (mem_names_of_anyOrigin hany)
      · exact iff_of_true (mem_names_of_anyOrigin hany) hany

end Produced

/-! ## A cookie without SameSite -/

def demoLocation : Location := .modelValidate
  { scheme := "https", host := "app.example", port := 443, method := some "GET" }

def cookieResponse (cookie : String) : FetchResult where
  url := "https://app.example/"
  status := 200
  headers := [("set-cookie", cookie)]
  body := ""

theorem headerOr_cookieResponse (cookie name other : String) (hname : name ≠ "set-cookie")
    (hother : other ≠ "set-cookie") : headerOr (cookieResponse cookie) name other = none := by
  simp [headerOr, headerOf, cookieResponse, hname.symm, hother.symm, orElse]

/-- The observations of a response with a cookie, which has no banner. -/
theorem exists_produced (w : World) (request : EngineRunRequest) (cookie : String) :
    ∃ obs h', newObservations w engine request (findings demoLocation (cookieResponse cookie)) [] =
      (.ok obs, h') := by
  refine (returnsIff_newObservations []).mpr (accepted_findings_iff.mpr ?_)
  intro h hh hdiscloses
  have hnames : ∀ h ∈ bannerHeaders, h.1 ≠ "set-cookie" ∧ h.2 ≠ "set-cookie" := by decide
  obtain ⟨hname, hother⟩ := hnames h hh
  refine absurd ?_ hdiscloses.1
  rw [headerOr_cookieResponse cookie _ _ hname hother]
  rfl

def plainCookie : FetchResult := cookieResponse "sid=1; Secure; HttpOnly"

theorem exists_cookieObservation (w : World) (request : EngineRunRequest) :
    ∃ obs h', newObservations w engine request (findings demoLocation plainCookie) [] =
        (.ok obs, h') ∧
      ∃ o ∈ obs, o.vulnClass = "insecure_cookie" ∧ o.detectorId = "cookie-flags" := by
  obtain ⟨obs, h', hrun⟩ := exists_produced w request "sid=1; Secure; HttpOnly"
  have hne : cookieFindings demoLocation plainCookie ≠ [] :=
    mt (cookieFindings_eq_nil_iff _).mp (by decide +kernel)
  obtain ⟨d, hd⟩ := List.exists_mem_of_ne_nil _ hne
  have hreported := forall₂_newObservations _ _ _ hrun
  obtain ⟨o, ho, hreports⟩ :=
    ExceptList.exists_of_forall₂ hreported (mem_findings.mpr (Or.inr (Or.inl hd)))
  obtain ⟨hid, hclass⟩ := of_mem_cookieFindings hd
  exact ⟨obs, h', hrun, o, ho, hreports.vulnClass.trans hclass, hreports.detectorId.trans hid⟩

theorem agrees_iff_plainCookie : ∃ obs h', newObservations refusingWorld engine pageRequest
      (findings demoLocation plainCookie) [] = (.ok obs, h') ∧
    ∃ o ∈ obs, Agrees o (cookieResponse "sid=1") ↔ Rechecked o (cookieResponse "sid=1") := by
  obtain ⟨obs, h', hrun, o, ho, hclass, -⟩ := exists_cookieObservation refusingWorld pageRequest
  refine ⟨obs, h', hrun, o, ⟨ho, ?_⟩⟩
  exact agrees_iff hrun ho (by rw [hclass]; decide) rfl

/-- The unchanged response is reported as a false positive. -/
theorem not_agrees_plainCookie :
    ¬ ∀ (w : World) (request : EngineRunRequest) (loc : Location) (res : FetchResult)
      (h h' : History) (obs : List Observation),
      newObservations w engine request (findings loc res) h = (.ok obs, h') →
        ∀ o ∈ obs, o.vulnClass ∈ classes → Agrees o res := by
  intro hall
  obtain ⟨obs, h', hrun, o, ho, hclass, hid⟩ := exists_cookieObservation refusingWorld pageRequest
  have hagrees := hall _ _ _ _ _ _ _ hrun o ho (by rw [hclass]; decide)
  have hhandles : ConfigReverify.handles o = true := by
    rw [ConfigReverify.handles, hclass]
    decide
  have hdetected : redetected o plainCookie = true := (redetected_cookie hid).mpr (by decide +kernel)
  rw [agrees_iff_eq hhandles, hdetected] at hagrees
  exact absurd ((conditionHolds_cookie hclass).mp hagrees) (by decide +kernel)

end Vantage.Scan.Recheck
