import Vantage.Adapters.Http
import Vantage.Scan.Validation

/-!
# The validation prober

A probe is a fetch of the scope-enforcing client. The prober passes the status,
headers and body on, and drops the flags of a failed fetch.
-/

namespace Vantage.Scan

open Adapters Scope Text

structure HttpProber where
  client : ScopedHttpClient

/-- The constructor; `now` is the time at which the authorization is checked. -/
def HttpProber.ofTarget (target : Target) (now : Time) : HttpProber :=
  ⟨{ scope := .ofTarget target now }⟩

def HttpProber.request (w : World) (p : HttpProber) (method url : String) :
    Action ProbeResponse := do
  let res ← p.client.fetch w method url
  pure ⟨res.status, res.headers, res.body, res.url⟩

def HttpProber.prober (w : World) (p : HttpProber) : Prober History := ⟨p.request w "GET"⟩

variable {w : World} {p : HttpProber} {obs : Observation} {s s' : History} {url : String}

/-- What the prober makes of a fetch that failed. -/
def blankResponse (url : String) : ProbeResponse := ⟨0, [], "", url⟩

theorem prober_get_of_failed {res : FetchResult} (h : p.client.fetch w "GET" url s = (.ok res, s'))
    (hok : res.ok = false) : (p.prober w).get url s = (.ok (blankResponse res.url), s') := by
  obtain ⟨hstatus, hheaders, hbody⟩ := blank_of_fetch h hok
  simp only [HttpProber.prober, HttpProber.request, Effect.bind_of_ok h, Effect.pure_apply,
    hstatus, hheaders, hbody, blankResponse]

/-! ## Evidence of the validator -/

theorem exists_evidence {raw : RawEvidence} (hid : raw.engineId = validatorId)
    (hlen : raw.summary.length ≤ maxSummary) : ∃ ev, Evidence.modelValidate raw = .ok ev := by
  have hident : isIdentifier raw.engineId = true := by
    rw [hid]
    decide
  exact ⟨_, dif_pos ⟨hident, hlen⟩⟩

theorem exists_configReverify_evidence (h : ConfigReverify.handles obs = true)
    (resp : ProbeResponse) (stillPresent : Bool) :
    ∃ ev, Evidence.modelValidate (ConfigReverify.evidence obs resp stillPresent) = .ok ev := by
  have hall : ∀ cat ∈ ConfigReverify.categories, ∀ b : Bool,
      ("Re-verified " ++ cat ++ ": condition " ++ (if b then "holds" else "no longer holds") ++
        " on fresh request").length ≤ maxSummary := by decide +kernel
  exact exists_evidence rfl (hall _ (by simpa [ConfigReverify.handles] using h) stillPresent)

theorem exists_reflection_evidence (h : ReflectionConsistency.handles obs = true)
    (marker : String) (baselineClean : Bool) :
    ∃ ev, Evidence.modelValidate (ReflectionConsistency.evidence obs marker baselineClean) =
      .ok ev := by
  rw [ReflectionConsistency.handles, Bool.and_eq_true] at h
  have hall : ∀ cat ∈ ReflectionConsistency.categories, ∀ b : Bool,
      ("Baseline differential for " ++ cat ++ ": marker " ++
        (if b then "absent from" else "present in") ++ " clean baseline").length ≤ maxSummary := by
    decide +kernel
  exact exists_evidence rfl (hall _ (by simpa using h.1) baselineClean)

/-! ## Strategies on an empty response -/

/-- The condition of a configuration finding on a response without headers and body. -/
def holdsOnBlank (obs : Observation) : Bool :=
  obs.vulnClass = "clickjacking" || obs.vulnClass = "insecure_cookie" ||
    (obs.vulnClass = "missing_security_header" && (ConfigReverify.expectedHeader obs).isSome)

theorem conditionHolds_blank (h : ConfigReverify.handles obs = true) (url : String) :
    ConfigReverify.conditionHolds obs (blankResponse url) = holdsOnBlank obs := by
  simp only [ConfigReverify.handles, ConfigReverify.categories, List.contains_iff_mem,
    List.mem_cons, List.not_mem_nil, or_false] at h
  rcases h with h | h | h | h | h
  · cases hexp : ConfigReverify.expectedHeader obs <;>
      simp [ConfigReverify.conditionHolds, holdsOnBlank, h, hexp, blankResponse]
  · simp [ConfigReverify.conditionHolds, holdsOnBlank, h, blankResponse, ConfigReverify.header]
    decide
  · simp [ConfigReverify.conditionHolds, holdsOnBlank, h, blankResponse]
  · simp [ConfigReverify.conditionHolds, holdsOnBlank, h, blankResponse]
    decide
  · simp [ConfigReverify.conditionHolds, holdsOnBlank, h, blankResponse]

/-- An empty response confirms or refutes every configuration finding. -/
theorem configReverify_blank {prober : Prober History} (hhandles : ConfigReverify.handles obs = true)
    (hget : prober.get (urlOf obs) s = (.ok (blankResponse url), s')) :
    ∃ result, ConfigReverify.validate obs prober s = (.ok result, s') ∧
      result.confidence = if holdsOnBlank obs then .confirmed else .falsePositive := by
  obtain ⟨ev, hev⟩ :=
    exists_configReverify_evidence hhandles (blankResponse url) (holdsOnBlank obs)
  unfold ConfigReverify.validate
  rw [Effect.bind_of_ok hget, conditionHolds_blank hhandles, hev]
  cases holdsOnBlank obs <;> exact ⟨_, rfl, rfl⟩

/-- An empty response makes every reflection finding firm. -/
theorem reflection_blank {prober : Prober History}
    (hhandles : ReflectionConsistency.handles obs = true)
    (hget : prober.get (urlOf obs) s = (.ok (blankResponse url), s')) :
    ∃ result, ReflectionConsistency.validate obs prober s = (.ok result, s') ∧
      result.confidence = .firm := by
  have hmarker : orElse (ReflectionConsistency.marker obs) "" ≠ "" := by
    rw [ReflectionConsistency.handles, Bool.and_eq_true] at hhandles
    simpa using hhandles.2
  have hclean : contains (blankResponse url).body (orElse (ReflectionConsistency.marker obs) "") =
      false := by
    simpa [contains, blankResponse] using hmarker
  obtain ⟨ev, hev⟩ :=
    exists_reflection_evidence hhandles (orElse (ReflectionConsistency.marker obs) "") true
  unfold ReflectionConsistency.validate
  rw [if_neg hmarker, Effect.bind_of_ok hget, hclean]
  simp only [Bool.not_false, hev]
  exact ⟨_, rfl, rfl⟩

/-! ## Failed tests -/

variable (w p obs s) in
/-- Validation leaves the confidence of the observation as it was. -/
def KeepsTrust : Prop :=
  ∃ obs' s', ({} : ValidationEngine History).validate w.utcnow obs (p.prober w) s = (.ok obs', s') ∧
    obs'.confidence = obs.confidence

/-- The observations whose confidence an empty response does not change. -/
def Settled (obs : Observation) : Prop :=
  if ConfigReverify.handles obs then
    obs.confidence = if holdsOnBlank obs then .confirmed else .falsePositive
  else if ReflectionConsistency.handles obs then
    obs.confidence = .firm ∨ obs.confidence = .confirmed
  else True

/-- The engine revises the observation by the result of the strategy that handles it. -/
theorem keepsTrust_of_result {strategy : ValidationStrategy History} {result : ValidationResult}
    (hfind : ({} : ValidationEngine History).strategies.find? (·.handles obs) = some strategy)
    (hresult : strategy.validate obs (p.prober w) s = (.ok result, s')) :
    KeepsTrust w p obs s ↔ newConfidence obs.confidence result.confidence = obs.confidence := by
  have hrun : ({} : ValidationEngine History).validate w.utcnow obs (p.prober w) s =
      (.ok (revise obs result (w.clock s')), .clock (w.clock s') :: s') := by
    unfold ValidationEngine.validate
    rw [hfind]
    simp only [Effect.bind_of_ok hresult, World.utcnow, Effect.bind_apply, Effect.pure_apply]
  unfold KeepsTrust
  rw [hrun]
  constructor
  · rintro ⟨obs', s'', hpair, hconf⟩
    rw [Prod.mk.injEq, Except.ok.injEq] at hpair
    rw [← hpair.1] at hconf
    exact hconf
  · exact fun hconf ↦ ⟨_, _, rfl, hconf⟩

theorem newConfidence_eq_self_iff {old new : Confidence} :
    newConfidence old new = old ↔ old = new ∨ (old = .confirmed ∧ new ≠ .falsePositive) := by
  cases old <;> cases new <;> decide

/-- After a failed fetch the confidence stays exactly where an empty response
says what is already recorded. -/
theorem keepsTrust_iff (hfail : ∃ res s', p.client.fetch w "GET" (urlOf obs) s = (.ok res, s') ∧
    res.ok = false) : KeepsTrust w p obs s ↔ Settled obs := by
  obtain ⟨res, s', hfetch, hok⟩ := hfail
  have hget := prober_get_of_failed hfetch hok
  unfold Settled
  by_cases hconfig : ConfigReverify.handles obs = true
  · obtain ⟨result, hresult, hconf⟩ := configReverify_blank hconfig hget
    have hfind : ({} : ValidationEngine History).strategies.find? (·.handles obs) =
        some ConfigReverify.strategy := by
      simp [ConfigReverify.strategy, hconfig]
    rw [keepsTrust_of_result hfind hresult, hconf, if_pos hconfig, newConfidence_eq_self_iff]
    cases holdsOnBlank obs <;> simp
  · rw [if_neg hconfig]
    by_cases hreflection : ReflectionConsistency.handles obs = true
    · obtain ⟨result, hresult, hconf⟩ := reflection_blank hreflection hget
      have hfind : ({} : ValidationEngine History).strategies.find? (·.handles obs) =
          some ReflectionConsistency.strategy := by
        simp [ConfigReverify.strategy, ReflectionConsistency.strategy, hconfig, hreflection]
      rw [keepsTrust_of_result hfind hresult, hconf, if_pos hreflection, newConfidence_eq_self_iff]
      simp
    · rw [if_neg hreflection, iff_true]
      refine ⟨obs, s, ?_, rfl⟩
      simp [ValidationEngine.validate, ConfigReverify.strategy, ReflectionConsistency.strategy,
        hconfig, hreflection]

def demoProber : HttpProber := ⟨{ scope := .fromRules [demoHost] true }⟩

def demoObservation (vulnClass : String) (matched : String) (confidence : Confidence) :
    Observation where
  id := "o"
  scanId := "s"
  runId := "r"
  engineId := "zap"
  engineVersion := "1"
  detectorId := "detector"
  title := ""
  vulnClass := vulnClass
  severity := .low
  confidence := confidence
  cwe := []
  location := .modelValidate { scheme := "https", host := "app.example", port := 443 }
  description := ""
  remediation := ""
  references := []
  evidence := [⟨.responseMatch, "zap", "", none, none, [matched], [], by decide, by decide⟩]
  observedAt := 0
  engineId_ok := by decide

theorem keepsTrust_iff_firmReflection :
    KeepsTrust refusingWorld demoProber (demoObservation "xss" "marker" .firm) [] ↔
      Settled (demoObservation "xss" "marker" .firm) :=
  keepsTrust_iff ⟨_, _, rfl, rfl⟩

/-- A tentative cookie finding is confirmed by a refused connection. -/
theorem not_keepsTrust_insecureCookie :
    ¬ KeepsTrust refusingWorld demoProber (demoObservation "insecure_cookie" "secure" .tentative)
      [] := by
  rintro ⟨obs', s', hrun, hconf⟩
  have hconfirmed : (({} : ValidationEngine History).validate refusingWorld.utcnow
      (demoObservation "insecure_cookie" "secure" .tentative) (demoProber.prober refusingWorld)
        []).1.map Observation.confidence = .ok .confirmed := by
    decide
  rw [hrun, Except.map, hconf] at hconfirmed
  exact absurd hconfirmed (by decide)

end Vantage.Scan
