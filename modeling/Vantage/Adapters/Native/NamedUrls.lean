import Vantage.Adapters.Native.CrawlOrder

/-!
# The URLs that a crawl notes

The page loop looks at the host of a link only to decide whether to follow it.
It notes every URL that the pages and scripts it reads name, and all of them
that have a host are reported.
-/

namespace Vantage.Adapters.Native.Crawler

open Text

variable {w : World} {client : ScopedHttpClient} {site : Site} {seeds seen : List String}
  {maxDepth : ℤ} {maxPages : ℕ} {found found' : Discovered} {queue : List (String × ℕ)}
  {page url : String} {depth : ℕ} {res : FetchResult} {request : EngineRunRequest}

/-! ## What a page names -/

/-- The URLs that a script leads to, if it is answered. -/
def scriptNames (w : World) (client : ScopedHttpClient) (site : Site) (src : String) :
    List String :=
  match fetchOf w client site src with
  | .error _ => []
  | .ok js => if js.ok then endpointsOf src js.body else []

/-- The URLs that a page leads to; of an HTML page, its links and what its scripts lead to. -/
def namesOf (w : World) (client : ScopedHttpClient) (site : Site) (page : String)
    (res : FetchResult) : List String :=
  if isHtml res then
    linksOf page res.body ++ (scriptsOf page res.body).flatMap (scriptNames w client site)
  else if isScript page res then endpointsOf page res.body
  else []

def urlsOf (found : Discovered) : List String := found.entries.map Prod.fst

/-- What a loop notes is noted in one of its rounds. -/
theorem mem_urlsOf_foldl {α : Type} {f : Discovered → α → Discovered} {names : α → List String}
    (hround : ∀ found a, url ∈ urlsOf (f found a) ↔ url ∈ urlsOf found ∨ url ∈ names a)
    (l : List α) (found : Discovered) :
    url ∈ urlsOf (l.foldl f found) ↔ url ∈ urlsOf found ∨ url ∈ l.flatMap names := by
  induction l generalizing found with
  | nil => simp
  | cons a l ih => rw [List.foldl_cons, ih, hround, List.flatMap_cons, List.mem_append, or_assoc]

theorem mem_urlsOf_setDefault (how : String) (found : Discovered) (link : String) :
    url ∈ urlsOf (found.setDefault link how) ↔ url ∈ urlsOf found ∨ url ∈ [link] := by
  rw [urlsOf, Dict.mem_keys_setDefault, List.mem_singleton, or_comm]
  rfl

/-- The loops that note a list of URLs. -/
theorem mem_urlsOf_notes (how : String) (urls : List String) (found : Discovered) :
    url ∈ urlsOf (urls.foldl (fun found link ↦ found.setDefault link how) found) ↔
      url ∈ urlsOf found ∨ url ∈ urls := by
  have hnoted := mem_urlsOf_foldl (@mem_urlsOf_setDefault url how) urls found
  rwa [List.flatMap_singleton'] at hnoted

theorem mem_noteScript (found : Discovered) (src : String) :
    url ∈ urlsOf (noteScript w client site found src) ↔
      url ∈ urlsOf found ∨ url ∈ scriptNames w client site src := by
  unfold noteScript scriptNames
  cases fetchOf w client site src with
  | error e => simp
  | ok js =>
      cases hok : js.ok with
      | false => simp [hok]
      | true =>
          simp only [hok, if_true]
          rw [noteEndpoints, mem_urlsOf_notes]

/-- A visit notes what the page names. -/
theorem mem_noted :
    url ∈ urlsOf (noted w client site seeds maxDepth page depth res found).1 ↔
      url ∈ urlsOf found ∨ url ∈ namesOf w client site page res := by
  by_cases hhtml : isHtml res = true
  · have hscripts := mem_urlsOf_foldl (@mem_noteScript w client site url)
      (scriptsOf page res.body) (noteAll page (linksOf page res.body) found)
    rw [noted, namesOf, if_pos hhtml, if_pos hhtml, List.mem_append, ← or_assoc]
    rw [hscripts, noteAll, mem_urlsOf_notes]
  · rw [noted, namesOf, if_neg hhtml, if_neg hhtml]
    by_cases hscript : isScript page res = true
    · rw [if_pos hscript, if_pos hscript, noteEndpoints, mem_urlsOf_notes]
    · rw [if_neg hscript, if_neg hscript]
      exact (or_iff_left List.not_mem_nil).symm

/-! ## The pages that are read -/

/-- From a state of the page loop, the crawl comes to read the page. -/
inductive Reads (w : World) (client : ScopedHttpClient) (site : Site) (seeds : List String)
    (maxDepth : ℤ) (maxPages : ℕ) :
    List String → List (String × ℕ) → String → FetchResult → Prop
  | here {seen : List String} {url : String} {depth : ℕ} {queue : List (String × ℕ)}
      {res : FetchResult} (hroom : seen.length < maxPages)
      (hnew : stripFragment url ∉ seen)
      (hfetch : fetchOf w client site (stripFragment url) = .ok res) :
      Reads w client site seeds maxDepth maxPages seen ((url, depth) :: queue)
        (stripFragment url) res
  | skipped {seen : List String} {url : String} {depth : ℕ} {queue : List (String × ℕ)}
      {page : String} {res : FetchResult} (hroom : seen.length < maxPages)
      (hseen : stripFragment url ∈ seen)
      (hrest : Reads w client site seeds maxDepth maxPages seen queue page res) :
      Reads w client site seeds maxDepth maxPages seen ((url, depth) :: queue) page res
  | later {seen : List String} {url : String} {depth : ℕ} {queue : List (String × ℕ)}
      {res : FetchResult} {page' : String} {res' : FetchResult} (hroom : seen.length < maxPages)
      (hnew : stripFragment url ∉ seen)
      (hfetch : fetchOf w client site (stripFragment url) = .ok res)
      (hrest : Reads w client site seeds maxDepth maxPages (stripFragment url :: seen)
        (queue ++ (nextOf seeds maxDepth (stripFragment url) depth res).map
          fun link ↦ (link, depth + 1)) page' res') :
      Reads w client site seeds maxDepth maxPages seen ((url, depth) :: queue) page' res'

theorem Reads.fetched (h : Reads w client site seeds maxDepth maxPages seen queue page res) :
    fetchOf w client site page = .ok res := by
  induction h with
  | here _ _ hfetch => exact hfetch
  | skipped _ _ _ ih => exact ih
  | later _ _ _ _ ih => exact ih

/-- A crawl that goes through has noted exactly what the pages that it read name. -/
theorem mem_found_iff
    (hcrawls : Crawls w client site seeds maxDepth maxPages seen found queue found') :
    url ∈ urlsOf found' ↔ url ∈ urlsOf found ∨ ∃ page res,
      Reads w client site seeds maxDepth maxPages seen queue page res ∧
        url ∈ namesOf w client site page res := by
  induction hcrawls with
  | finished =>
      refine (or_iff_left ?_).symm
      rintro ⟨page, res, hreads, -⟩
      cases hreads
  | full hfull =>
      refine (or_iff_left ?_).symm
      rintro ⟨page, res, hreads, -⟩
      cases hreads with
      | here hroom => exact absurd hroom (not_lt.mpr hfull)
      | skipped hroom => exact absurd hroom (not_lt.mpr hfull)
      | later hroom => exact absurd hroom (not_lt.mpr hfull)
  | skipped hroom hseen _ ih =>
      rw [ih]
      refine or_congr_right (exists₂_congr fun page res ↦ and_congr_left' ?_)
      constructor
      · exact .skipped hroom hseen
      · intro hreads
        cases hreads with
        | here _ hnew => exact absurd hseen hnew
        | skipped _ _ hrest => exact hrest
        | later _ hnew => exact absurd hseen hnew
  | @visited seen found url' depth queue found' res hroom hnew hfetch _ _ ih =>
      rw [ih, mem_noted, or_assoc, noted_snd]
      refine or_congr_right ?_
      constructor
      · rintro (hnamed | ⟨page, res', hreads, hnamed⟩)
        · exact ⟨_, res, .here hroom hnew hfetch, hnamed⟩
        · exact ⟨page, res', .later hroom hnew hfetch hreads, hnamed⟩
      · rintro ⟨page, res', hreads, hnamed⟩
        cases hreads with
        | here _ _ hfetch' =>
            obtain rfl := Except.ok.inj (hfetch.symm.trans hfetch')
            exact Or.inl hnamed
        | skipped _ hseen => exact absurd hseen hnew
        | later _ _ hfetch' hrest =>
            obtain rfl := Except.ok.inj (hfetch.symm.trans hfetch')
            exact Or.inr ⟨page, res', hrest, hnamed⟩

/-! ## What is reported -/

theorem reportEndpoint_ok {entry : String × String} {block : List Observation} {s s' : History}
    (hrun : reportEndpoint w request entry s = (.ok block, s')) :
    ∃ loc, locationOf entry.1 = .ok loc ∧
      ∀ host, (∃ o ∈ block, o.location.host = host) ↔ loc.host = host ∧ host ≠ "" := by
  obtain ⟨loc, s₁, hloc, hrun⟩ := Effect.exists_of_bind_ok hrun
  refine ⟨loc, congrArg Prod.fst hloc, fun host ↦ ?_⟩
  split_ifs at hrun with hempty
  · obtain ⟨rfl, -⟩ := Effect.eq_of_pure hrun
    refine iff_of_false (by simp) ?_
    rintro ⟨rfl, hne⟩
    exact hne hempty
  · obtain ⟨o, rfl, hreports⟩ : ∃ o, block = [o] ∧ Reports (endpoint loc entry.1 entry.2) o := by
      obtain ⟨o, rest, hreports, hrest, rfl⟩ :=
        List.forall₂_cons_left_iff.mp (forall₂_newObservations s₁ block s' hrun)
      rw [List.forall₂_nil_left_iff.mp hrest]
      exact ⟨o, rfl, hreports⟩
    have hhost : o.location.host = loc.host := congrArg Location.host hreports.location
    simp only [List.mem_singleton, exists_eq_left, hhost]
    exact (and_iff_left_of_imp fun heq ↦ heq ▸ hempty).symm

theorem toObservations_hosts {obs : List Observation} {s s' : History}
    (hrun : toObservations w request found s = (.ok obs, s')) {host : String} :
    (∃ o ∈ obs, o.location.host = host) ↔ ∃ url ∈ urlsOf found, ∃ loc,
      locationOf url = .ok loc ∧ loc.host = host ∧ host ≠ "" := by
  obtain ⟨blocks, rfl, hblocks⟩ := Effect.exists_blocks_of_collect hrun
  constructor
  · rintro ⟨o, ho, hhost⟩
    obtain ⟨block, hblock, ho⟩ := List.mem_flatten.mp ho
    obtain ⟨entry, hentry, s₁, s₂, hreport⟩ := ExceptList.exists_of_forall₂ hblocks.flip hblock
    obtain ⟨loc, hloc, hhosts⟩ := reportEndpoint_ok hreport
    have hmem := (List.mem_insertionSort _).mp hentry
    exact ⟨entry.1, List.mem_map_of_mem hmem, loc, hloc, (hhosts host).mp ⟨o, ho, hhost⟩⟩
  · rintro ⟨url, hurl, loc, hloc, hhost⟩
    obtain ⟨entry, hmem, rfl⟩ := List.mem_map.mp hurl
    obtain ⟨block, hblock, s₁, s₂, hreport⟩ :=
      ExceptList.exists_of_forall₂ hblocks ((List.mem_insertionSort _).mpr hmem)
    obtain ⟨loc', hloc', hhosts⟩ := reportEndpoint_ok hreport
    obtain rfl := Except.ok.inj (hloc.symm.trans hloc')
    obtain ⟨o, ho, hoHost⟩ := (hhosts host).mpr hhost
    exact ⟨o, List.mem_flatten.mpr ⟨block, hblock, ho⟩, hoHost⟩

/-- The page is read in the crawl of the request, whose options may bound it. -/
def CrawlReads (w : World) (client : ScopedHttpClient) (site : Site) (request : EngineRunRequest)
    (page : String) (res : FetchResult) : Prop :=
  ∃ maxPages maxDepth,
    pyInt (Json.getD request.options "max_pages" (.num defaultMaxPages)) = .ok maxPages ∧
    pyInt (Json.getD request.options "max_depth" (.num defaultMaxDepth)) = .ok maxDepth ∧
    Reads w client site request.seedUrls maxDepth maxPages.toNat []
      (request.seedUrls.map fun u ↦ (u, 0)) page res

/-- The hosts that a crawl that goes through reports are those of the URLs that the pages it
reads name. -/
theorem reported_hosts_iff {obs : List Observation} {s s' : History}
    (hrun : adapter.analyze (serving w site) request client s = (.ok obs, s')) (host : String) :
    (∃ o ∈ obs, o.location.host = host) ↔ ∃ page res, CrawlReads w client site request page res ∧
      ∃ url ∈ namesOf w client site page res, ∃ loc, locationOf url = .ok loc ∧
        loc.host = host ∧ host ≠ "" := by
  obtain ⟨maxPages, s₁, hpages, hrun⟩ := Effect.exists_of_bind_ok hrun
  obtain ⟨maxDepth, s₂, hdepth, hrun⟩ := Effect.exists_of_bind_ok hrun
  obtain ⟨found, s₃, hcrawl, hrun⟩ := Effect.exists_of_bind_ok hrun
  have hpages := congrArg Prod.fst hpages
  have hdepth := congrArg Prod.fst hdepth
  have hcrawls := crawls_of_crawl hcrawl
  rw [toObservations_hosts hrun]
  constructor
  · rintro ⟨url, hurl, hhost⟩
    obtain ⟨page, res, hreads, hnamed⟩ := ((mem_found_iff hcrawls).mp hurl).resolve_left
      List.not_mem_nil
    exact ⟨page, res, ⟨maxPages, maxDepth, hpages, hdepth, hreads⟩, url, hnamed, hhost⟩
  · rintro ⟨page, res, ⟨maxPages', maxDepth', hpages', hdepth', hreads⟩, url, hnamed, hhost⟩
    obtain rfl := Except.ok.inj (hpages.symm.trans hpages')
    obtain rfl := Except.ok.inj (hdepth.symm.trans hdepth')
    exact ⟨url, (mem_found_iff hcrawls).mpr (Or.inr ⟨page, res, hreads, hnamed⟩), hhost⟩

/-! ## The page loop by rounds -/

/-- The page loop by the pages that may still be visited. -/
def crawlRounds (w : World) (client : ScopedHttpClient) (seeds : List String) (maxDepth : ℤ) :
    ℕ → List String → Discovered → List (String × ℕ) → Action Discovered
  | 0, _, found, _ => pure found
  | room + 1, seen, found, queue =>
      match queue.dropWhile fun entry ↦ stripFragment entry.1 ∈ seen with
      | [] => pure found
      | (url, depth) :: queue => do
          let (found, queued) ← visit w client seeds maxDepth (stripFragment url) depth found
          crawlRounds w client seeds maxDepth room (stripFragment url :: seen) found
            (queue ++ queued)

theorem crawl_eq_crawlRounds (w : World) (client : ScopedHttpClient) (seeds : List String)
    (maxDepth : ℤ) (maxPages : ℕ) (seen : List String) (found : Discovered)
    (queue : List (String × ℕ)) : crawl w client seeds maxDepth maxPages seen found queue =
      crawlRounds w client seeds maxDepth (maxPages - seen.length) seen found queue := by
  induction seen, found, queue using crawl.induct maxPages with
  | case1 seen found =>
      rw [crawl]
      cases maxPages - seen.length with
      | zero => rfl
      | succ room => rfl
  | case2 seen found url depth queue hmore hseen ih =>
      rw [crawl, dif_pos hmore, if_pos hseen, ih]
      obtain ⟨room, hroom⟩ := Nat.exists_eq_add_of_lt hmore
      have hleft : maxPages - seen.length = room + 1 := by omega
      rw [hleft, crawlRounds, crawlRounds, List.dropWhile_cons_of_pos (by simpa using hseen)]
  | case3 seen found url depth queue hmore hseen ih =>
      rw [crawl, dif_pos hmore, if_neg hseen]
      obtain ⟨room, hroom⟩ := Nat.exists_eq_add_of_lt hmore
      have hleft : maxPages - seen.length = room + 1 := by omega
      have hnext : maxPages - (stripFragment url :: seen).length = room := by
        rw [List.length_cons]
        omega
      rw [hleft, crawlRounds, List.dropWhile_cons_of_neg (by simpa using hseen)]
      refine congrArg (visit w client seeds maxDepth (stripFragment url) depth found >>= ·) ?_
      funext r
      rw [← hnext]
      exact ih r.1 r.2
  | case4 seen found url depth queue hfull =>
      rw [crawl, dif_neg hfull, Nat.sub_eq_zero_of_le (not_lt.mp hfull)]
      rfl

/-- The adapter with the page loop in this form. -/
def roundsAdapter : NativeAdapter where
  engine := engine
  analyze w request client := do
    let maxPages ← Effect.ofExcept
      (pyInt (Json.getD request.options "max_pages" (.num defaultMaxPages)))
    let maxDepth ← Effect.ofExcept
      (pyInt (Json.getD request.options "max_depth" (.num defaultMaxDepth)))
    let found ← crawlRounds w client request.seedUrls maxDepth maxPages.toNat [] .empty
      (request.seedUrls.map fun u ↦ (u, 0))
    toObservations w request found

theorem adapter_eq_roundsAdapter : adapter = roundsAdapter := by
  unfold adapter roundsAdapter
  simp only [crawl_eq_crawlRounds, List.length_nil, Nat.sub_zero]

end Vantage.Adapters.Native.Crawler
