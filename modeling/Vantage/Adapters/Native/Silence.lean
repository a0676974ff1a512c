import Vantage.Adapters.Native.TameCrawl

/-!
# What a hostile site can silence

Three analyses return on every site that is tame, and what is reported for a seed
does not depend on the answers for the others.
-/

namespace Vantage.Adapters.Native

open Text

/-- The answers of the site make no step of the three analyses raise. -/
structure Tame (w : World) (client : ScopedHttpClient) (request : EngineRunRequest) (site : Site) :
    Prop where
  headers : ∀ url ∈ request.seedUrls, SeedTame w client site BannersFit url
  fingerprint : ∀ url ∈ request.seedUrls, SeedTame w client site SignaturesFit url
  crawler : Crawler.CrawlTame w client site request

/-- From every history the analysis of the site returns. -/
def ReturnsOn (w : World) (client : ScopedHttpClient) (request : EngineRunRequest) (site : Site)
    (a : NativeAdapter) : Prop :=
  ∀ s, ∃ obs s', a.analyze (serving w site) request client s = (.ok obs, s')

/-- On two sites the observations are those of the seeds, in their order, and a seed for which the
sites give one answer has the same on both. -/
structure Isolates (w : World) (client : ScopedHttpClient) (request : EngineRunRequest)
    (site site' : Site) (a : NativeAdapter)
    (seed : World → EngineRunRequest → ScopedHttpClient → String → Action (List Observation)) :
    Prop where
  blocks : ∀ s obs s', a.analyze (serving w site) request client s = (.ok obs, s') →
    ∃ blocks, obs = blocks.flatten ∧ List.Forall₂
      (fun url block ↦ ∃ s s', seed (serving w site) request client url s = (.ok block, s'))
      request.seedUrls blocks
  same : ∀ url block block' s s' t t', site url = site' url →
    seed (serving w site) request client url s = (.ok block, s') →
    seed (serving w site') request client url t = (.ok block', t') →
    block.map core = block'.map core

structure Undisturbed (w : World) (client : ScopedHttpClient) (request : EngineRunRequest)
    (site site' : Site) : Prop where
  returns : ∀ a ∈ [Headers.adapter, Fingerprint.adapter, Crawler.adapter],
    ReturnsOn w client request site a ∧ ReturnsOn w client request site' a
  headers : Isolates w client request site site' Headers.adapter Headers.analyzeSeed
  fingerprint : Isolates w client request site site' Fingerprint.adapter Fingerprint.analyzeSeed

variable {w : World} {client : ScopedHttpClient} {request : EngineRunRequest} {site site' : Site}

theorem returnsOn_iff {a : NativeAdapter} {c : Prop}
    (h : Effect.ReturnsIff (a.analyze (serving w site) request client) c) :
    ReturnsOn w client request site a ↔ c :=
  ⟨fun hreturns ↦ (h []).mp (hreturns []), fun hc s ↦ (h s).mpr hc⟩

theorem forall_returnsOn_iff :
    (∀ a ∈ [Headers.adapter, Fingerprint.adapter, Crawler.adapter],
      ReturnsOn w client request site a) ↔ Tame w client request site := by
  simp only [List.forall_mem_cons, List.not_mem_nil, IsEmpty.forall_iff, implies_true, and_true]
  rw [returnsOn_iff returnsIff_headers, returnsOn_iff returnsIff_fingerprint,
    returnsOn_iff Crawler.returnsIff_analyze]
  exact ⟨fun h ↦ ⟨h.1, h.2.1, h.2.2⟩, fun h ↦ ⟨h.headers, h.fingerprint, h.crawler⟩⟩

theorem isolates_headers :
    Isolates w client request site site' Headers.adapter Headers.analyzeSeed where
  blocks _ _ _ hrun := Effect.exists_blocks_of_collect hrun
  same _ _ _ _ _ _ _ hsite hrun hrun' := core_analyzeSeed hsite hrun hrun'

theorem isolates_fingerprint :
    Isolates w client request site site' Fingerprint.adapter Fingerprint.analyzeSeed where
  blocks _ _ _ hrun := Effect.exists_blocks_of_collect hrun
  same _ _ _ _ _ _ _ hsite hrun hrun' := core_analyzeSeed hsite hrun hrun'

/-- No engine is silenced on two sites, and no seed disturbs another, exactly when both sites are
tame. -/
theorem undisturbed_iff (w : World) (client : ScopedHttpClient) (request : EngineRunRequest)
    (site site' : Site) : Undisturbed w client request site site' ↔
      Tame w client request site ∧ Tame w client request site' := by
  rw [← forall_returnsOn_iff, ← forall_returnsOn_iff, ← forall₂_and]
  exact ⟨Undisturbed.returns, fun h ↦ ⟨h, isolates_headers, isolates_fingerprint⟩⟩

/-! ## A link with an open bracket -/

/-- Every byte is read as one character. -/
def latinWorld : World :=
  { refusingWorld with
    decode := fun _ bytes ↦ .ok (String.ofList (bytes.map fun b ↦ Char.ofNat b.toNat)) }

theorem htmlHeaders_nodup : ([("content-type", "text/html")].map Prod.fst).Nodup := by decide

def htmlSite (html : String) : Site := fun _ ↦ .response
  { url := "https://app.example/"
    statusCode := 200
    headers := [("content-type", "text/html")]
    content := html.toList.map fun c ↦ c.toNat.toUInt8
    encoding := none
    headers_nodup := htmlHeaders_nodup }

def demoClient : ScopedHttpClient := { scope := .fromRules [demoHost] true }

def bracketSite : Site := htmlSite "<a href=\"http://[\">"

theorem not_crawlTame_bracketSite :
    ¬ Crawler.CrawlTame latinWorld demoClient bracketSite Headers.pageRequest := by
  rintro ⟨maxPages, maxDepth, found, hpages, -, hcrawls, -⟩
  obtain rfl : 60 = maxPages := Except.ok.inj hpages
  have hbracket : ((fetchOf latinWorld demoClient bracketSite
        (Crawler.stripFragment "https://app.example/")).toOption.any fun res ↦
      Crawler.isHtml res && (Crawler.hrefsOf res.body).any fun raw ↦
        (Url.urljoin (Crawler.stripFragment "https://app.example/") raw).isNone) = true := by
    decide +kernel
  have hstart : Crawler.Crawls latinWorld demoClient bracketSite Headers.pageRequest.seedUrls
      maxDepth 60 [] .empty [("https://app.example/", 0)] found := hcrawls
  cases hstart with
  | full hfull => exact absurd hfull (by decide)
  | skipped _ hseen _ => exact absurd hseen List.not_mem_nil
  | visited _ _ hfetch htame _ =>
      rw [hfetch, Except.toOption, Option.any_some, Bool.and_eq_true, List.any_eq_true] at hbracket
      obtain ⟨hhtml, raw, hraw, hnone⟩ := hbracket
      rw [Crawler.PageTame, if_pos hhtml] at htame
      exact htame.hrefs raw hraw (Option.isNone_iff_eq_none.mp hnone)

theorem not_undisturbed_bracketSite :
    ¬ ∀ (w : World) (client : ScopedHttpClient) (request : EngineRunRequest) (site site' : Site),
      Undisturbed w client request site site' := by
  intro h
  have hreturns := (h latinWorld demoClient Headers.pageRequest bracketSite bracketSite).returns
    Crawler.adapter (by simp)
  exact not_crawlTame_bracketSite ((returnsOn_iff Crawler.returnsIff_analyze).mp hreturns.1)

end Vantage.Adapters.Native
