import Vantage.Adapters.Native.Silence
import Vantage.Lib.BreadthFirst

/-!
# The pages of a crawl

The page loop is a breadth-first search: of the pages behind the seeds it
fetches those in reach, each once and by its shortest chain of links.
-/

namespace Vantage.Adapters.Native.Crawler

open Text BreadthFirst

/-- The variables of the page loop. A page is in `seen` from the moment that it is fetched. -/
structure Loop where
  seen : List String
  found : Discovered
  queue : List (String × ℕ)

/-- The page loop, with the variables as it leaves them. -/
def crawlLoop (w : World) (client : ScopedHttpClient) (seeds : List String) (maxDepth : ℤ)
    (maxPages : ℕ) (seen : List String) (found : Discovered) (queue : List (String × ℕ)) :
    Action Loop :=
  match queue with
  | [] => pure ⟨seen, found, []⟩
  | (url, depth) :: queue =>
      if _h : seen.length < maxPages then
        if stripFragment url ∈ seen then crawlLoop w client seeds maxDepth maxPages seen found queue
        else do
          let (found, queued) ← visit w client seeds maxDepth (stripFragment url) depth found
          crawlLoop w client seeds maxDepth maxPages (stripFragment url :: seen) found
            (queue ++ queued)
      else pure ⟨seen, found, (url, depth) :: queue⟩
termination_by (maxPages - seen.length, queue.length)
decreasing_by
  · exact Prod.Lex.right _ (Nat.lt_succ_self _)
  · exact Prod.Lex.left _ _ (by simp only [List.length_cons]; omega)

variable {w : World} {client : ScopedHttpClient} {site : Site} {seeds : List String}
  {maxDepth : ℤ} {page link : String} {depth : ℕ} {res : FetchResult}

/-- The crawl is the page loop, of which only the findings are kept. -/
theorem crawl_eq_crawlLoop (maxPages : ℕ) (seen : List String) (found : Discovered)
    (queue : List (String × ℕ)) :
    crawl w client seeds maxDepth maxPages seen found queue =
      crawlLoop w client seeds maxDepth maxPages seen found queue >>= fun l ↦ pure l.found := by
  induction seen, found, queue using crawl.induct maxPages with
  | case1 seen found =>
      rw [crawl, crawlLoop]
      rfl
  | case2 seen found url depth queue hroom hseen ih =>
      rw [crawl, crawlLoop, dif_pos hroom, if_pos hseen, dif_pos hroom, if_pos hseen, ih]
  | case3 seen found url depth queue hroom hnew ih =>
      rw [crawl, crawlLoop, dif_pos hroom, if_neg hnew, dif_pos hroom, if_neg hnew,
        Effect.bind_assoc]
      exact congrArg (visit w client seeds maxDepth (stripFragment url) depth found >>= ·)
        (funext fun r ↦ ih r.1 r.2)
  | case4 seen found url depth queue hfull =>
      rw [crawl, crawlLoop, dif_neg hfull, dif_neg hfull]
      rfl

/-! ## Links and chains -/

/-- The link is extracted from an HTML page that is ok, and has a host of the seeds. -/
def Links (w : World) (client : ScopedHttpClient) (site : Site) (seeds : List String)
    (page link : String) : Prop :=
  ∃ res links, fetchOf w client site page = .ok res ∧ isHtml res = true ∧
    extractLinks page res.body = .ok links ∧ link ∈ links ∧ sameHost link seeds = .ok true

/-- So many links lead from a seed to the page. -/
def LinkChain (w : World) (client : ScopedHttpClient) (site : Site) (seeds : List String) :
    ℕ → String → Prop :=
  Chain (Links w client site seeds) (· ∈ seeds.map stripFragment)

/-- Every URL that a crawl comes across on the site can be parsed. -/
def LinksParse (w : World) (client : ScopedHttpClient) (site : Site) (seeds : List String)
    (maxDepth : ℤ) : Prop :=
  ∀ n page, LinkChain w client site seeds n page → ∃ res, fetchOf w client site page = .ok res ∧
    PageTame w client site seeds maxDepth page n res

theorem stripFragment_stripFragment (url : String) :
    stripFragment (stripFragment url) = stripFragment url := by
  have hno : '#' ∉ (cut '#' url.toList).1 := notMem_cut_fst '#' url.toList
  rw [stripFragment, stripFragment, String.toList_ofList, cut_eq_none hno]

/-- The links of a visited page that are queued. -/
def nextOf (seeds : List String) (maxDepth : ℤ) (page : String) (depth : ℕ) (res : FetchResult) :
    List String :=
  if isHtml res then (linksOf page res.body).filter (follows seeds maxDepth depth) else []

theorem noted_snd (found : Discovered) :
    (noted w client site seeds maxDepth page depth res found).2 =
      (nextOf seeds maxDepth page depth res).map fun link ↦ (link, depth + 1) := by
  have hqueued : ∀ links : List String, queuedOf seeds maxDepth depth links =
      (links.filter (follows seeds maxDepth depth)).map fun link ↦ (link, depth + 1) := by
    intro links
    induction links with
    | nil => rfl
    | cons link links ih =>
        rw [queuedOf, List.flatMap_cons, ← queuedOf, ih, List.filter_cons]
        split_ifs <;> rfl
  rw [noted, nextOf]
  by_cases hhtml : isHtml res = true
  · rw [if_pos hhtml, if_pos hhtml]
    dsimp only
    exact hqueued (linksOf page res.body)
  · rw [if_neg hhtml, if_neg hhtml]
    by_cases hscript : isScript page res = true
    · rw [if_pos hscript]
      rfl
    · rw [if_neg hscript]
      rfl

theorem stripFragment_of_mem_linksOf {html : String} (h : link ∈ linksOf page html) :
    stripFragment link = link := by
  obtain ⟨url, -, rfl⟩ := List.mem_map.mp h
  exact stripFragment_stripFragment url

theorem stripFragment_of_mem_nextOf (h : link ∈ nextOf seeds maxDepth page depth res) :
    stripFragment link = link := by
  unfold nextOf at h
  split_ifs at h
  · exact stripFragment_of_mem_linksOf (List.mem_filter.mp h).1
  · exact absurd h List.not_mem_nil

/-- What is queued after a visit are the links of the page, if it is not too deep. -/
theorem mem_nextOf_iff (hfetch : fetchOf w client site page = .ok res)
    (htame : PageTame w client site seeds maxDepth page depth res) :
    link ∈ nextOf seeds maxDepth page depth res ↔
      (depth : ℤ) < maxDepth ∧ Links w client site seeds page link := by
  unfold PageTame at htame
  unfold nextOf
  by_cases hhtml : isHtml res = true
  · rw [if_pos hhtml] at htame ⊢
    have hextract := extractLinks_of_joins htame.hrefs
    have hhost : (depth : ℤ) < maxDepth → link ∈ linksOf page res.body →
        sameHost link seeds = .ok ((seeds.map hostOf).contains (hostOf link)) := by
      intro hdepth hlink
      obtain ⟨hsplits, hseeds⟩ := htame.links link hlink hdepth
      exact sameHost_of_splits hsplits hseeds
    rw [List.mem_filter, follows, Bool.and_eq_true, decide_eq_true_iff]
    constructor
    · rintro ⟨hlink, hdepth, hsame⟩
      refine ⟨hdepth, res, _, hfetch, hhtml, hextract, hlink, ?_⟩
      rw [hhost hdepth hlink, hsame]
    · rintro ⟨hdepth, res', links, hfetch', -, hextract', hlink, hsame⟩
      obtain rfl := Except.ok.inj (hfetch.symm.trans hfetch')
      obtain rfl := Except.ok.inj (hextract.symm.trans hextract')
      rw [hhost hdepth hlink] at hsame
      exact ⟨hlink, hdepth, Except.ok.inj hsame⟩
  · rw [if_neg hhtml]
    refine iff_of_false List.not_mem_nil ?_
    rintro ⟨-, res', links, hfetch', hhtml', -⟩
    obtain rfl := Except.ok.inj (hfetch.symm.trans hfetch')
    exact hhtml hhtml'

/-! ## The rounds of the loop -/

/-- The queue, with the pages that its URLs stand for. -/
def pagesOf (queue : List (String × ℕ)) : List (String × ℕ) :=
  queue.map fun e ↦ (stripFragment e.1, e.2)

/-- The search that the loop has come to. -/
def Represents (search : Search String) (seen : List String) (queue : List (String × ℕ)) : Prop :=
  search.nodes = seen ∧ search.queue = pagesOf queue

/-- The loop ends, and its rounds are those of a search. -/
theorem exists_rounds (hparse : LinksParse w client site seeds maxDepth) (maxPages : ℕ)
    (seen : List String) (found : Discovered) (queue : List (String × ℕ)) (search : Search String)
    (hinv : Invariant (Links w client site seeds) (· ∈ seeds.map stripFragment) maxDepth search)
    (hrep : Represents search seen queue) (hroom : seen.length ≤ maxPages) (s : History) :
    ∃ l s' search', crawlLoop (serving w site) client seeds maxDepth maxPages seen found queue s =
        (.ok l, s') ∧
      Relation.ReflTransGen (Round (Links w client site seeds) maxDepth) search search' ∧
      Represents search' l.seen l.queue ∧ l.seen.length ≤ maxPages ∧
      (l.queue = [] ∨ l.seen.length = maxPages) := by
  induction seen, found, queue using crawl.induct maxPages generalizing search s with
  | case1 seen found =>
      rw [crawlLoop]
      exact ⟨_, s, search, rfl, .refl, hrep, hroom, Or.inl rfl⟩
  | case2 seen found url depth queue hless hseen ih =>
      obtain ⟨visited, waiting⟩ := search
      obtain ⟨rfl, rfl⟩ := hrep
      have hround : Round (Links w client site seeds) maxDepth
          ⟨visited, pagesOf ((url, depth) :: queue)⟩ ⟨visited, pagesOf queue⟩ := .skip hseen
      obtain ⟨l, s', search', hrun, hrounds, hend⟩ :=
        ih _ (invariant_round hround hinv) ⟨rfl, rfl⟩ hroom s
      rw [crawlLoop, dif_pos hless, if_pos hseen]
      exact ⟨l, s', search', hrun, .head hround hrounds, hend⟩
  | case3 seen found url depth queue hless hnew ih =>
      obtain ⟨visited, waiting⟩ := search
      obtain ⟨rfl, rfl⟩ := hrep
      obtain ⟨hchain, -⟩ := hinv.chained (stripFragment url) depth (Or.inr List.mem_cons_self)
      obtain ⟨res, hfetch, htame⟩ := hparse depth (stripFragment url) hchain
      obtain ⟨s₁, hvisit⟩ : ∃ s₁, visit _ _ _ _ _ depth found s = (.ok _, s₁) :=
        visit_of_tame hfetch htame s
      have hround : Round (Links w client site seeds) maxDepth
          ⟨visited, pagesOf ((url, depth) :: queue)⟩
          ⟨(stripFragment url, depth) :: visited, pagesOf queue ++
            (nextOf seeds maxDepth (stripFragment url) depth res).map fun b ↦ (b, depth + 1)⟩ :=
        .visit hnew fun b ↦ mem_nextOf_iff hfetch htame
      have hpages : pagesOf (queue ++
          (noted w client site seeds maxDepth (stripFragment url) depth res found).2) =
          pagesOf queue ++
            (nextOf seeds maxDepth (stripFragment url) depth res).map fun b ↦ (b, depth + 1) := by
        rw [noted_snd, pagesOf, pagesOf, List.map_append, List.map_map]
        refine congrArg (_ ++ ·) (List.map_congr_left fun link hlink ↦ ?_)
        exact congrArg (·, depth + 1) (stripFragment_of_mem_nextOf hlink)
      obtain ⟨l, s', search', hrun, hrounds, hend⟩ :=
        ih _ _ _ (invariant_round hround hinv) ⟨rfl, hpages.symm⟩ hless s₁
      rw [crawlLoop, dif_pos hless, if_neg hnew, Effect.bind_of_ok hvisit]
      exact ⟨l, s', search', hrun, .head hround hrounds, hend⟩
  | case4 seen found url depth queue hfull =>
      rw [crawlLoop, dif_neg hfull]
      exact ⟨_, s, search, rfl, .refl, hrep, hroom, Or.inr (hroom.antisymm (not_lt.mp hfull))⟩

/-! ## A site with one link -/

def nextSite : Site := htmlSite "<a href=\"/next\">"

def nextPages : List String := ["https://app.example/", "https://app.example/next"]

theorem nextSite_reads : ∀ page ∈ nextPages,
    ((fetchOf latinWorld demoClient nextSite page).toOption.any fun res ↦
      isHtml res && hrefsOf res.body == ["/next"] && srcsOf res.body == [] &&
        Url.urljoin page "/next" == some "https://app.example/next") = true := by
  decide +kernel

theorem nextPages_split : ∀ page ∈ nextPages, Splits page := by
  have hsome : ∀ page ∈ nextPages, (Url.urlsplit page).isSome = true := by decide +kernel
  exact fun page hpage ↦ Option.isSome_iff_ne_none.mp (hsome page hpage)

theorem exists_nextSite (h : page ∈ nextPages) :
    ∃ res, fetchOf latinWorld demoClient nextSite page = .ok res ∧ isHtml res = true ∧
      hrefsOf res.body = ["/next"] ∧ srcsOf res.body = [] ∧
      Url.urljoin page "/next" = some "https://app.example/next" := by
  have hreads := nextSite_reads page h
  cases hfetch : fetchOf latinWorld demoClient nextSite page with
  | error e =>
      rw [hfetch] at hreads
      exact absurd hreads (by simp [Except.toOption])
  | ok res =>
      rw [hfetch, Except.toOption, Option.any_some] at hreads
      simp only [Bool.and_eq_true, beq_iff_eq] at hreads
      exact ⟨res, rfl, hreads.1.1.1, hreads.1.1.2, hreads.1.2, hreads.2⟩

theorem linksOf_nextSite (hhrefs : hrefsOf res.body = ["/next"])
    (hjoin : Url.urljoin page "/next" = some "https://app.example/next") :
    linksOf page res.body = ["https://app.example/next"] := by
  have hstrip : stripFragment "https://app.example/next" = "https://app.example/next" := by
    decide +kernel
  rw [linksOf, joined, hhrefs, List.filterMap_cons_some hjoin, List.filterMap_nil,
    List.map_singleton, hstrip]

theorem mem_nextPages_of_chain {n : ℕ}
    (h : LinkChain latinWorld demoClient nextSite ["https://app.example/"] n page) :
    page ∈ nextPages := by
  have hstrip : stripFragment "https://app.example/" = "https://app.example/" := by
    decide +kernel
  induction h with
  | root hroot =>
      rw [List.map_singleton, hstrip, List.mem_singleton] at hroot
      rw [hroot]
      exact List.mem_cons_self
  | link _ hlink ih =>
      obtain ⟨res, hfetch, -, hhrefs, -, hjoin⟩ := exists_nextSite ih
      obtain ⟨res', links, hfetch', -, hextract, hlink, -⟩ := hlink
      obtain rfl := Except.ok.inj (hfetch.symm.trans hfetch')
      have hlinks := extractLinks_of_joins (joins_of_extractLinks hextract)
      obtain rfl := Except.ok.inj (hlinks.symm.trans hextract)
      rw [linksOf_nextSite hhrefs hjoin, List.mem_singleton] at hlink
      rw [hlink]
      exact List.mem_cons_of_mem _ List.mem_cons_self

theorem linksParse_nextSite (maxDepth : ℤ) :
    LinksParse latinWorld demoClient nextSite ["https://app.example/"] maxDepth := by
  intro n page hchain
  obtain ⟨res, hfetch, hhtml, hhrefs, hsrcs, hjoin⟩ :=
    exists_nextSite (mem_nextPages_of_chain hchain)
  refine ⟨res, hfetch, ?_⟩
  rw [PageTame, if_pos hhtml]
  refine ⟨?_, ?_, ?_, ?_⟩
  · rw [hhrefs, List.forall_mem_singleton, Joins, hjoin]
    exact Option.some_ne_none _
  · rw [linksOf_nextSite hhrefs hjoin, List.forall_mem_singleton]
    refine fun _ ↦ ⟨nextPages_split _ (by decide), ?_⟩
    rw [List.forall_mem_singleton]
    exact nextPages_split _ (by decide)
  · rw [hsrcs]
    exact List.forall_mem_nil _
  · rw [scriptsOf, hsrcs]
    exact List.forall_mem_nil _

/-! ## The result -/

/-- The page loop ends. It fetches no page twice and no more pages than allowed, and when it has
emptied the queue it has fetched the seeds and all pages in reach of them. -/
theorem crawlLoop_breadthFirst (hparse : LinksParse w client site seeds maxDepth) (maxPages : ℤ)
    (s : History) :
    ∃ l s', crawlLoop (serving w site) client seeds maxDepth maxPages.toNat [] .empty
        (seeds.map fun u ↦ (u, 0)) s = (.ok l, s') ∧
      crawl (serving w site) client seeds maxDepth maxPages.toNat [] .empty
        (seeds.map fun u ↦ (u, 0)) s = (.ok l.found, s') ∧
      l.seen.Nodup ∧ l.seen.length ≤ maxPages.toNat ∧
      (l.queue = [] ∨ l.seen.length = maxPages.toNat) ∧
      (l.queue = [] → ∀ page, page ∈ l.seen ↔ page ∈ seeds.map stripFragment ∨
        ∃ n : ℕ, IsLeast {k | LinkChain w client site seeds k page} n ∧ (n : ℤ) ≤ maxDepth) := by
  have hstart : Represents (start (seeds.map stripFragment)) [] (seeds.map fun u ↦ (u, 0)) :=
    ⟨rfl, by simp [start, pagesOf]⟩
  obtain ⟨l, s', search, hrun, hrounds, ⟨hnodes, hqueue⟩, hbound, hend⟩ :=
    exists_rounds hparse maxPages.toNat [] .empty _ _ (invariant_start _) hstart (Nat.zero_le _) s
  have hinv := invariant_run hrounds (invariant_start _)
  refine ⟨l, s', hrun, ?_, hnodes ▸ hinv.distinct, hbound, hend, fun hempty page ↦ ?_⟩
  · rw [crawl_eq_crawlLoop, Effect.bind_of_ok hrun, Effect.pure_apply]
  · rw [hempty] at hqueue
    rw [← hnodes]
    exact mem_nodes_iff hinv hqueue

theorem crawlLoop_breadthFirst_nextSite :
    ∃ l s', crawlLoop (serving latinWorld nextSite) demoClient ["https://app.example/"] 3
        (60 : ℤ).toNat [] .empty [("https://app.example/", 0)] [] = (.ok l, s') ∧
      crawl (serving latinWorld nextSite) demoClient ["https://app.example/"] 3
        (60 : ℤ).toNat [] .empty [("https://app.example/", 0)] [] = (.ok l.found, s') ∧
      l.seen.Nodup ∧ l.seen.length ≤ (60 : ℤ).toNat ∧
      (l.queue = [] ∨ l.seen.length = (60 : ℤ).toNat) ∧
      (l.queue = [] → ∀ page, page ∈ l.seen ↔
        page ∈ ["https://app.example/"].map stripFragment ∨
        ∃ n : ℕ, IsLeast {k | LinkChain latinWorld demoClient nextSite ["https://app.example/"] k
          page} n ∧ (n : ℤ) ≤ 3) :=
  crawlLoop_breadthFirst (linksParse_nextSite 3) 60 []

end Vantage.Adapters.Native.Crawler
