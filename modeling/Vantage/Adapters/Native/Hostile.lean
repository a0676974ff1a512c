import Vantage.Adapters.Native.Fingerprint
import Vantage.Adapters.Native.HeaderRules

/-!
# Hostile sites

A site answers every URL in a way of its own. An analysis returns exactly when
nothing that the site answers makes a step of it raise.
-/

namespace Vantage.Adapters.Native

open Text

/-! ## A site -/

abbrev Site := String → HttpOutcome

/-- The world in which the site answers. -/
def serving (w : World) (site : Site) : World := { w with respond := fun _ _ url ↦ site url }

/-- What the client makes of the answer for a URL. -/
def fetchOf (w : World) (client : ScopedHttpClient) (site : Site) (url : String) :
    Except PyError FetchResult :=
  match client.scope.check w.regex url (some "GET") with
  | .error e => .error e
  | .ok decision =>
      .ok <|
        if decision.allowed then client.read w url (site url)
        else
          { url := url, status := 0, headers := [], body := ""
            error := some decision.reason, outOfScope := true }

section Fetch

variable {w : World} {client : ScopedHttpClient} {site : Site} {url : String} {res : FetchResult}

theorem get_serving (w : World) (client : ScopedHttpClient) (site : Site) (url : String)
    (s : History) : ∃ s', client.get (serving w site) url s = (fetchOf w client site url, s') := by
  unfold ScopedHttpClient.get ScopedHttpClient.fetch fetchOf
  change ∃ s', (Effect.ofExcept (client.scope.check w.regex url (some "GET")) >>= _) s = _
  cases client.scope.check w.regex url (some "GET") with
  | error e => exact ⟨s, rfl⟩
  | ok decision =>
      rw [Effect.bind_of_ok (Effect.ofExcept_apply (.ok decision) s)]
      obtain ⟨allowed, reason, rule⟩ := decision
      cases allowed with
      | false => exact ⟨_, rfl⟩
      | true => exact ⟨_, rfl⟩

theorem get_serving_of_ok (hres : fetchOf w client site url = .ok res) (s : History) : ∃ s',
    client.get (serving w site) url s = (.ok res, s') := by
  rw [← hres]
  exact get_serving w client site url s

theorem fetchOf_of_get {s s' : History} (hrun : client.get (serving w site) url s = (.ok res, s')) :
    fetchOf w client site url = .ok res := by
  obtain ⟨s'', hrun'⟩ := get_serving w client site url s
  rw [hrun] at hrun'
  exact (congrArg Prod.fst hrun').symm

end Fetch

/-- The URL can be split, and its port is absent or a number in range. -/
def Locatable (url : String) : Prop := ∃ parts, Url.urlsplit url = some parts ∧ parts.port ≠ none

theorem exists_locationOf_iff {url : String} :
    (∃ loc, locationOf url = .ok loc) ↔ Locatable url := by
  unfold locationOf Locatable
  cases Url.urlsplit url with
  | none => simp
  | some parts =>
      cases hport : parts.port with
      | none => simp [hport]
      | some explicit => simp [hport]

/-! ## Seeds that are fetched once -/

section Seeds

variable {w : World} {client : ScopedHttpClient} {request : EngineRunRequest} {site : Site}
  {engine : NativeEngine} {findings : Location → FetchResult → List Detection} {url : String}

/-- The loop body that two of the analyzers share. -/
def analyzeSeed (engine : NativeEngine) (findings : Location → FetchResult → List Detection)
    (w : World) (request : EngineRunRequest) (client : ScopedHttpClient) (url : String) :
    Action (List Observation) := do
  let res ← client.get w url
  if !res.ok then pure []
  else
    let loc ← Effect.ofExcept (locationOf res.url)
    newObservations w engine request (findings loc res)

/-- The answer for a seed makes no step raise. -/
def SeedTame (w : World) (client : ScopedHttpClient) (site : Site) (accepted : FetchResult → Prop)
    (url : String) : Prop :=
  ∃ res, fetchOf w client site url = .ok res ∧ (res.ok = true → Locatable res.url ∧ accepted res)

theorem returnsIff_analyzeSeed (engine : NativeEngine) {accepted : FetchResult → Prop}
    (haccepted : ∀ loc res, (∀ d ∈ findings loc res, d.Accepted) ↔ accepted res) :
    Effect.ReturnsIff (analyzeSeed engine findings (serving w site) request client url)
      (SeedTame w client site accepted url) := by
  cases hfetch : fetchOf w client site url with
  | error e =>
      intro s
      obtain ⟨s', hrun⟩ := get_serving w client site url s
      rw [hfetch] at hrun
      rw [analyzeSeed, Effect.bind_of_error hrun]
      simp [SeedTame, hfetch]
  | ok res =>
      have hiff : SeedTame w client site accepted url ↔
          (res.ok = true → Locatable res.url ∧ accepted res) := by
        simp [SeedTame, hfetch]
      refine Effect.ReturnsIff.congr (Effect.ReturnsIff.bind_of_ok (get_serving_of_ok hfetch) ?_)
        hiff.symm
      cases hok : res.ok with
      | false => exact (Effect.ReturnsIff.pure _).congr (by simp)
      | true =>
          refine Effect.ReturnsIff.congr (c := (∃ loc, locationOf res.url = .ok loc) ∧ accepted res)
            ?_ (by simp [exists_locationOf_iff])
          refine Effect.ReturnsIff.bind (Effect.ReturnsIff.ofExcept _) fun _ loc _ _ ↦ ?_
          exact returnsIff_newObservations.congr (haccepted loc res)

/-- No value of a header that a signature names is too long for a summary. -/
def SignaturesFit (res : FetchResult) : Prop :=
  ∀ sig ∈ Fingerprint.signatures, ∀ value, Fingerprint.headerMatch res sig.header = some value →
    (sig.technology ++ " via " ++ value).length ≤ maxSummary

/-- No banner is too long for a summary. -/
def BannersFit (res : FetchResult) : Prop :=
  ∀ h ∈ Headers.bannerHeaders, Headers.Discloses res h.1 h.2 →
    (h.1 ++ ": " ++ orElse (Headers.headerOr res h.1 h.2) "").length ≤ maxSummary

theorem accepted_detected {loc : Location} {sig : Fingerprint.Signature} {value : String} :
    (Fingerprint.detected loc sig value).Accepted ↔
      (sig.technology ++ " via " ++ value).length ≤ maxSummary := and_iff_right Fingerprint.id_ok

theorem accepted_fingerprints_iff (loc : Location) (res : FetchResult) :
    (∀ d ∈ Fingerprint.findings loc res, d.Accepted) ↔ SignaturesFit res := by
  have hcookies : ∀ sig ∈ Fingerprint.signatures, ∀ cookie, sig.cookie = some cookie →
      (sig.technology ++ " via " ++ ("cookie:" ++ cookie)).length ≤ maxSummary := by
    decide
  have hbodies : ∀ sig ∈ Fingerprint.signatures,
      (sig.technology ++ " via " ++ "body-marker").length ≤ maxSummary := by decide
  constructor
  · intro hall sig hsig value hvalue
    refine accepted_detected.mp (hall (Fingerprint.detected loc sig value) ?_)
    refine List.mem_filterMap.mpr ⟨sig, hsig, ?_⟩
    rw [Fingerprint.matchedValue, hvalue]
    rfl
  · intro hfit d hd
    obtain ⟨sig, hsig, hmatched⟩ := List.mem_filterMap.mp hd
    obtain ⟨value, hvalue, rfl⟩ := Option.map_eq_some_iff.mp hmatched
    refine accepted_detected.mpr ?_
    rw [Fingerprint.matchedValue, Option.or_eq_some_iff, Option.or_eq_some_iff] at hvalue
    rcases hvalue with (hheader | ⟨-, hcookie⟩) | ⟨-, hbody⟩
    · exact hfit sig hsig value hheader
    · cases hsigCookie : sig.cookie with
      | none => simp [hsigCookie, Fingerprint.cookieMatch] at hcookie
      | some cookie =>
          rw [hsigCookie, Fingerprint.cookieMatch, Option.ite_none_right_eq_some] at hcookie
          rw [← Option.some.inj hcookie.2]
          exact hcookies sig hsig cookie hsigCookie
    · cases hsigBody : sig.body with
      | none => simp [hsigBody, Fingerprint.bodyMatch] at hbody
      | some pattern =>
          rw [hsigBody, Fingerprint.bodyMatch, Option.ite_none_right_eq_some] at hbody
          rw [← Option.some.inj hbody.2]
          exact hbodies sig hsig

theorem returnsIff_headers :
    Effect.ReturnsIff (Headers.adapter.analyze (serving w site) request client)
      (∀ url ∈ request.seedUrls, SeedTame w client site BannersFit url) :=
  Effect.ReturnsIff.collect fun _ _ ↦
    returnsIff_analyzeSeed Headers.engine fun _ _ ↦ Headers.accepted_findings_iff

theorem returnsIff_fingerprint :
    Effect.ReturnsIff (Fingerprint.adapter.analyze (serving w site) request client)
      (∀ url ∈ request.seedUrls, SeedTame w client site SignaturesFit url) :=
  Effect.ReturnsIff.collect fun _ _ ↦
    returnsIff_analyzeSeed Fingerprint.engine accepted_fingerprints_iff

end Seeds

/-! ## Seeds do not disturb each other -/

/-- An observation without what is drawn anew for each. -/
def core (o : Observation) : Observation := { o with id := "", observedAt := 0 }

section Isolation

variable {w w' : World} {client : ScopedHttpClient} {request : EngineRunRequest}
  {site site' : Site} {engine : NativeEngine}
  {findings : Location → FetchResult → List Detection} {url : String}

theorem core_newObservation {d : Detection} {o o' : Observation} {s s' t t' : History}
    (hrun : newObservation w engine request d s = (.ok o, s'))
    (hrun' : newObservation w' engine request d t = (.ok o', t')) : core o = core o' := by
  unfold newObservation at hrun hrun'
  rw [Effect.ofExcept_bind_eq_ok_iff] at hrun hrun'
  obtain ⟨ev, hev, hrun⟩ := hrun
  obtain ⟨ev', hev', hrun'⟩ := hrun'
  obtain rfl := Except.ok.inj (hev.symm.trans hev')
  obtain ⟨id, s₁, -, hrun⟩ := Effect.exists_of_bind_ok hrun
  obtain ⟨now, s₂, -, hrun⟩ := Effect.exists_of_bind_ok hrun
  obtain ⟨id', t₁, -, hrun'⟩ := Effect.exists_of_bind_ok hrun'
  obtain ⟨now', t₂, -, hrun'⟩ := Effect.exists_of_bind_ok hrun'
  obtain ⟨rfl, -⟩ := Effect.eq_of_pure hrun
  obtain ⟨rfl, -⟩ := Effect.eq_of_pure hrun'
  rfl

theorem core_newObservations {detections : List Detection} {obs obs' : List Observation}
    {s s' t t' : History} (hrun : newObservations w engine request detections s = (.ok obs, s'))
    (hrun' : newObservations w' engine request detections t = (.ok obs', t')) :
    obs.map core = obs'.map core := by
  induction detections generalizing obs obs' s s' t t' with
  | nil =>
      obtain ⟨rfl, -⟩ := Effect.eq_of_pure hrun
      obtain ⟨rfl, -⟩ := Effect.eq_of_pure hrun'
      rfl
  | cons d detections ih =>
      obtain ⟨first, s₁, hfirst, hrun⟩ := Effect.exists_of_bind_ok hrun
      obtain ⟨first', t₁, hfirst', hrun'⟩ := Effect.exists_of_bind_ok hrun'
      obtain ⟨o, s₂, ho, hfirst⟩ := Effect.exists_of_bind_ok hfirst
      obtain ⟨o', t₂, ho', hfirst'⟩ := Effect.exists_of_bind_ok hfirst'
      obtain ⟨rfl, -⟩ := Effect.eq_of_pure hfirst
      obtain ⟨rfl, -⟩ := Effect.eq_of_pure hfirst'
      obtain ⟨rest, s₃, hrest, hrun⟩ := Effect.exists_of_bind_ok hrun
      obtain ⟨rest', t₃, hrest', hrun'⟩ := Effect.exists_of_bind_ok hrun'
      obtain ⟨rfl, -⟩ := Effect.eq_of_pure hrun
      obtain ⟨rfl, -⟩ := Effect.eq_of_pure hrun'
      rw [List.map_append, List.map_append, ih hrest hrest', List.map_singleton,
        List.map_singleton, core_newObservation ho ho']

/-- What is reported for a seed is determined by the answer for it. -/
theorem core_analyzeSeed {block block' : List Observation} {s s' t t' : History}
    (hsite : site url = site' url)
    (hrun : analyzeSeed engine findings (serving w site) request client url s = (.ok block, s'))
    (hrun' : analyzeSeed engine findings (serving w site') request client url t =
      (.ok block', t')) : block.map core = block'.map core := by
  obtain ⟨res, s₁, hget, hrun⟩ := Effect.exists_of_bind_ok hrun
  obtain ⟨res', t₁, hget', hrun'⟩ := Effect.exists_of_bind_ok hrun'
  have hfetch : fetchOf w client site url = fetchOf w client site' url := by
    rw [fetchOf, fetchOf, hsite]
  rw [fetchOf_of_get hget, fetchOf_of_get hget'] at hfetch
  obtain rfl := Except.ok.inj hfetch
  cases hok : res.ok with
  | false =>
      rw [hok, if_pos Bool.not_false] at hrun hrun'
      obtain ⟨rfl, -⟩ := Effect.eq_of_pure hrun
      obtain ⟨rfl, -⟩ := Effect.eq_of_pure hrun'
      rfl
  | true =>
      rw [hok, if_neg (by simp), Effect.ofExcept_bind_eq_ok_iff] at hrun hrun'
      obtain ⟨loc, hloc, hrun⟩ := hrun
      obtain ⟨loc', hloc', hrun'⟩ := hrun'
      obtain rfl := Except.ok.inj (hloc.symm.trans hloc')
      exact core_newObservations hrun hrun'

end Isolation

end Vantage.Adapters.Native
