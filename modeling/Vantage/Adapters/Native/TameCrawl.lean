import Vantage.Adapters.Native.Crawler
import Vantage.Adapters.Native.Hostile
import Vantage.Lib.ExceptList

/-!
# Crawls that do not raise

The crawl of a site, with what each page and script that it reads must be like.
-/

namespace Vantage.Adapters.Native.Crawler

open Text

/-! ## References -/

/-- The links of a page, before they are joined to its URL. -/
def hrefsOf (html : String) : List String :=
  ((groupsOf hrefPattern html).map strip).filter fun raw ↦
    !skippedSchemes.any (startsWith (lower raw))

def srcsOf (html : String) : List String := groupsOf scriptSrcPattern html

/-- The paths that a script names. -/
def pathsOf (js : String) : List String :=
  (groupsOf jsPathPattern js).filter fun path ↦ !startsWith path "//"

def Joins (base raw : String) : Prop := Url.urljoin base raw ≠ none

def Splits (url : String) : Prop := Url.urlsplit url ≠ none

def joined (base : String) (raws : List String) : List String := raws.filterMap (Url.urljoin base)

def linksOf (page html : String) : List String := (joined page (hrefsOf html)).map stripFragment

def endpointsOf (base js : String) : List String :=
  sortedSet ((groupsOf jsUrlPattern js).map stripFragment ++
    (joined base (pathsOf js)).map stripFragment)

theorem exists_urljoin_iff {base raw : String} :
    (∃ url, urljoin base raw = .ok url) ↔ Joins base raw := by
  unfold urljoin Joins
  cases Url.urljoin base raw <;> simp

/-- Joining a list of references succeeds when each can be joined. -/
theorem mapM_urljoin {base : String} {raws : List String} (f : String → String)
    (h : ∀ raw ∈ raws, Joins base raw) :
    (raws.mapM fun raw ↦ do
      let url ← urljoin base raw
      pure (f url)) = .ok ((joined base raws).map f) := by
  induction raws with
  | nil => rfl
  | cons raw raws ih =>
      obtain ⟨url, hurl⟩ := Option.ne_none_iff_exists'.mp (h raw List.mem_cons_self)
      have hrest := ih fun raw' h' ↦ h raw' (List.mem_cons_of_mem _ h')
      have hfirst : (urljoin base raw >>= fun url ↦ pure (f url)) = Except.ok (f url) := by
        rw [urljoin, hurl]
        rfl
      rw [joined, List.filterMap_cons_some hurl]
      exact ExceptList.mapM_cons_ok hfirst hrest

theorem joins_of_mapM {base : String} {raws urls : List String} {f : String → String}
    (h : (raws.mapM fun raw ↦ do
      let url ← urljoin base raw
      pure (f url)) = .ok urls) : ∀ raw ∈ raws, Joins base raw := by
  intro raw hraw
  obtain ⟨url, -, hurl⟩ := ExceptList.exists_of_forall₂ (ExceptList.forall₂_of_mapM_eq_ok h) hraw
  obtain ⟨joinedUrl, hjoined, -⟩ := ExceptList.exists_of_bind_ok hurl
  exact exists_urljoin_iff.mp ⟨joinedUrl, hjoined⟩

/-! ## Links -/

def hostOf (url : String) : Option String := (Url.urlsplit url).bind Url.SplitResult.hostname

theorem hostnameOf_of_splits {url : String} (h : Splits url) : hostnameOf url = .ok (hostOf url) := by
  obtain ⟨parts, hparts⟩ := Option.ne_none_iff_exists'.mp h
  rw [hostnameOf, hostOf, hparts]
  rfl

theorem splits_of_hostnameOf {url : String} {host : Option String} (h : hostnameOf url = .ok host) :
    Splits url := by
  intro hnone
  simp [hostnameOf, hnone] at h

/-- The link can be followed, or is too deep to be looked at. -/
def Followable (seeds : List String) (maxDepth : ℤ) (depth : ℕ) (link : String) : Prop :=
  (depth : ℤ) < maxDepth → Splits link ∧ ∀ seed ∈ seeds, Splits seed

def follows (seeds : List String) (maxDepth : ℤ) (depth : ℕ) (link : String) : Bool :=
  (depth : ℤ) < maxDepth && (seeds.map hostOf).contains (hostOf link)

theorem sameHost_of_splits {link : String} {seeds : List String} (hlink : Splits link)
    (hseeds : ∀ seed ∈ seeds, Splits seed) :
    sameHost link seeds = .ok ((seeds.map hostOf).contains (hostOf link)) := by
  have hall : seeds.mapM hostnameOf = .ok (seeds.map hostOf) := by
    refine ExceptList.mapM_eq_ok ?_
    rw [List.forall₂_map_right_iff, List.forall₂_same]
    exact fun seed hseed ↦ hostnameOf_of_splits (hseeds seed hseed)
  rw [sameHost, hostnameOf_of_splits hlink, hall]
  rfl

theorem splits_of_sameHost {link : String} {seeds : List String} {b : Bool}
    (h : sameHost link seeds = .ok b) : Splits link ∧ ∀ seed ∈ seeds, Splits seed := by
  obtain ⟨host, hhost, h⟩ := ExceptList.exists_of_bind_ok h
  obtain ⟨seedHosts, hseeds, -⟩ := ExceptList.exists_of_bind_ok h
  refine ⟨splits_of_hostnameOf hhost, fun seed hseed ↦ ?_⟩
  obtain ⟨_, -, hok⟩ := ExceptList.exists_of_forall₂ (ExceptList.forall₂_of_mapM_eq_ok hseeds) hseed
  exact splits_of_hostnameOf hok

def noteAll (page : String) (links : List String) (found : Discovered) : Discovered :=
  links.foldl (fun found link ↦ found.setDefault link ("html:" ++ page)) found

def queuedOf (seeds : List String) (maxDepth : ℤ) (depth : ℕ) (links : List String) :
    List (String × ℕ) :=
  links.flatMap fun link ↦ if follows seeds maxDepth depth link then [(link, depth + 1)] else []

variable {seeds : List String} {maxDepth : ℤ}

theorem noteLinks_cons {page link : String} {depth : ℕ} {links : List String} {found : Discovered} :
    noteLinks seeds maxDepth page depth (link :: links) found =
      (if (depth : ℤ) < maxDepth then sameHost link seeds else .ok false).bind fun follow ↦
        (noteLinks seeds maxDepth page depth links
          (found.setDefault link ("html:" ++ page))).bind fun r ↦
            .ok (r.1, (if follow then [(link, depth + 1)] else []) ++ r.2) := by
  rw [noteLinks]
  split_ifs <;> rfl

theorem noteLinks_of_followable {page : String} {depth : ℕ} {links : List String}
    (h : ∀ link ∈ links, Followable seeds maxDepth depth link) (found : Discovered) :
    noteLinks seeds maxDepth page depth links found =
      .ok (noteAll page links found, queuedOf seeds maxDepth depth links) := by
  induction links generalizing found with
  | nil => rfl
  | cons link links ih =>
      have hfollow : (if (depth : ℤ) < maxDepth then sameHost link seeds else .ok false) =
          Except.ok (ε := PyError) (follows seeds maxDepth depth link) := by
        unfold follows
        split_ifs with hdepth
        · obtain ⟨hlink, hseeds⟩ := h link List.mem_cons_self hdepth
          rw [sameHost_of_splits hlink hseeds]
          simp [hdepth]
        · simp [hdepth]
      rw [noteLinks_cons, hfollow, Except.bind,
        ih fun link' h' ↦ h link' (List.mem_cons_of_mem _ h')]
      rfl

theorem followable_of_noteLinks {page : String} {depth : ℕ} {links : List String}
    {found : Discovered} {r : Discovered × List (String × ℕ)}
    (h : noteLinks seeds maxDepth page depth links found = .ok r) :
    ∀ link ∈ links, Followable seeds maxDepth depth link := by
  induction links generalizing found r with
  | nil => simp
  | cons link links ih =>
      rw [noteLinks_cons] at h
      obtain ⟨follow, hfollow, h⟩ := ExceptList.exists_of_bind_ok h
      obtain ⟨r', hrest, -⟩ := ExceptList.exists_of_bind_ok h
      refine List.forall_mem_cons.mpr ⟨fun hdepth ↦ ?_, ih hrest⟩
      rw [if_pos hdepth] at hfollow
      exact splits_of_sameHost hfollow

/-! ## Scripts -/

variable {w : World} {client : ScopedHttpClient} {site : Site}

/-- All paths that a script names can be joined. -/
def ScriptTame (w : World) (client : ScopedHttpClient) (site : Site) (src : String) : Prop :=
  ∃ js, fetchOf w client site src = .ok js ∧ (js.ok = true → ∀ path ∈ pathsOf js.body, Joins src path)

def noteScript (w : World) (client : ScopedHttpClient) (site : Site) (found : Discovered)
    (src : String) : Discovered :=
  match fetchOf w client site src with
  | .error _ => found
  | .ok js => if js.ok then noteEndpoints src (endpointsOf src js.body) found else found

theorem extractJsEndpoints_eq (base js : String) : extractJsEndpoints base js =
    ((pathsOf js).mapM fun path ↦ do
      let url ← urljoin base path
      pure (stripFragment url)).bind fun paths ↦
        .ok (sortedSet ((groupsOf jsUrlPattern js).map stripFragment ++ paths)) := rfl

theorem extractJsEndpoints_of_joins {base js : String} (h : ∀ path ∈ pathsOf js, Joins base path) :
    extractJsEndpoints base js = .ok (endpointsOf base js) := by
  rw [extractJsEndpoints_eq, mapM_urljoin stripFragment h]
  rfl

theorem joins_of_extractJsEndpoints {base js : String} {endpoints : List String}
    (h : extractJsEndpoints base js = .ok endpoints) : ∀ path ∈ pathsOf js, Joins base path := by
  rw [extractJsEndpoints_eq] at h
  obtain ⟨paths, hpaths, -⟩ := ExceptList.exists_of_bind_ok h
  exact joins_of_mapM hpaths

theorem visitScript_of_tame {src : String} (h : ScriptTame w client site src) (found : Discovered)
    (s : History) : ∃ s', visitScript (serving w site) client found src s =
      (.ok (noteScript w client site found src), s') := by
  obtain ⟨js, hfetch, hjoins⟩ := h
  obtain ⟨s', hget⟩ := get_serving_of_ok hfetch s
  refine ⟨s', ?_⟩
  have hnoted : noteScript w client site found src =
      if js.ok then noteEndpoints src (endpointsOf src js.body) found else found := by
    rw [noteScript, hfetch]
  rw [visitScript, Effect.bind_of_ok hget, hnoted]
  split_ifs with hok
  · have hextract := extractJsEndpoints_of_joins (hjoins hok)
    rw [Effect.bind_of_ok (Effect.ofExcept_of_ok hextract s'), Effect.pure_apply]
  · rw [Effect.pure_apply]

theorem tame_of_visitScript {src : String} {found found' : Discovered} {s s' : History}
    (h : visitScript (serving w site) client found src s = (.ok found', s')) :
    ScriptTame w client site src := by
  obtain ⟨js, s₁, hget, h⟩ := Effect.exists_of_bind_ok h
  refine ⟨js, fetchOf_of_get hget, fun hok ↦ ?_⟩
  rw [if_pos hok] at h
  -- the result is opaque to the unifier, which would compute it
  generalize hendpoints : extractJsEndpoints src js.body = endpoints at h
  obtain ⟨endpoints', rfl, -⟩ := Effect.ofExcept_bind_eq_ok_iff.mp h
  exact joins_of_extractJsEndpoints hendpoints

/-! ## Pages -/

def isHtml (res : FetchResult) : Bool := res.ok && contains (contentType res) "html"

def isScript (page : String) (res : FetchResult) : Bool := res.ok && looksLikeJs page res

def scriptsOf (page html : String) : List String := joined page (srcsOf html)

/-- Nothing that a page refers to makes a step of the visit raise. -/
structure HtmlTame (w : World) (client : ScopedHttpClient) (site : Site) (seeds : List String)
    (maxDepth : ℤ) (page : String) (depth : ℕ) (html : String) : Prop where
  hrefs : ∀ raw ∈ hrefsOf html, Joins page raw
  links : ∀ link ∈ linksOf page html, Followable seeds maxDepth depth link
  srcs : ∀ raw ∈ srcsOf html, Joins page raw
  scripts : ∀ src ∈ scriptsOf page html, ScriptTame w client site src

def PageTame (w : World) (client : ScopedHttpClient) (site : Site) (seeds : List String)
    (maxDepth : ℤ) (page : String) (depth : ℕ) (res : FetchResult) : Prop :=
  if isHtml res then HtmlTame w client site seeds maxDepth page depth res.body
  else isScript page res = true → ∀ path ∈ pathsOf res.body, Joins page path

/-- What a visit notes, and what it adds to the queue. -/
def noted (w : World) (client : ScopedHttpClient) (site : Site) (seeds : List String)
    (maxDepth : ℤ) (page : String) (depth : ℕ) (res : FetchResult) (found : Discovered) :
    Discovered × List (String × ℕ) :=
  if isHtml res then
    ((scriptsOf page res.body).foldl (noteScript w client site)
      (noteAll page (linksOf page res.body) found),
      queuedOf seeds maxDepth depth (linksOf page res.body))
  else if isScript page res then (noteEndpoints page (endpointsOf page res.body) found, [])
  else (found, [])

variable {page : String} {depth : ℕ} {res : FetchResult} {found : Discovered}

theorem extractLinks_of_joins {html : String} (h : ∀ raw ∈ hrefsOf html, Joins page raw) :
    extractLinks page html = .ok (linksOf page html) := mapM_urljoin stripFragment h

theorem joins_of_extractLinks {html : String} {links : List String}
    (h : extractLinks page html = .ok links) : ∀ raw ∈ hrefsOf html, Joins page raw := by
  rw [extractLinks, ← hrefsOf] at h
  exact joins_of_mapM h

theorem extractScriptSrcs_of_joins {html : String} (h : ∀ raw ∈ srcsOf html, Joins page raw) :
    extractScriptSrcs page html = .ok (scriptsOf page html) := by
  have hid : (fun raw ↦ do
      let url ← urljoin page raw
      pure (id url)) = urljoin page := by
    funext raw
    cases urljoin page raw <;> rfl
  have hall := mapM_urljoin id h
  rwa [hid, List.map_id] at hall

theorem joins_of_extractScriptSrcs {html : String} {srcs : List String}
    (h : extractScriptSrcs page html = .ok srcs) : ∀ raw ∈ srcsOf html, Joins page raw := by
  intro raw hraw
  obtain ⟨src, -, hsrc⟩ := ExceptList.exists_of_forall₂ (ExceptList.forall₂_of_mapM_eq_ok h) hraw
  exact exists_urljoin_iff.mp ⟨src, hsrc⟩

/-- The part of a visit that reads a page. -/
def readHtml (w : World) (client : ScopedHttpClient) (seeds : List String) (maxDepth : ℤ)
    (page : String) (depth : ℕ) (found : Discovered) (html : String) :
    Action (Discovered × List (String × ℕ)) := do
  let links ← Effect.ofExcept (extractLinks page html)
  let (found, queued) ← Effect.ofExcept (noteLinks seeds maxDepth page depth links found)
  let srcs ← Effect.ofExcept (extractScriptSrcs page html)
  let found ← Effect.foldl (visitScript w client) found srcs
  pure (found, queued)

/-- The part of a visit that reads a script. -/
def readScript (page : String) (found : Discovered) (js : String) :
    Action (Discovered × List (String × ℕ)) := do
  let endpoints ← Effect.ofExcept (extractJsEndpoints page js)
  pure (noteEndpoints page endpoints found, [])

theorem visit_eq : visit w client seeds maxDepth page depth found =
    client.get w page >>= fun res ↦
      if isHtml res then readHtml w client seeds maxDepth page depth found res.body
      else if isScript page res then readScript page found res.body
      else pure (found, []) := by
  unfold visit
  refine congrArg (client.get w page >>= ·) (funext fun res ↦ ?_)
  rw [← Bool.not_and, ← isHtml, ← isScript]
  cases isHtml res with
  | false => rw [if_pos Bool.not_false, if_neg Bool.false_ne_true, readScript]
  | true => rw [if_neg (by simp), if_pos rfl, readHtml]

theorem readHtml_of_tame {html : String}
    (htame : HtmlTame w client site seeds maxDepth page depth html) (s : History) :
    ∃ s', readHtml (serving w site) client seeds maxDepth page depth found html s =
      (.ok ((scriptsOf page html).foldl (noteScript w client site)
          (noteAll page (linksOf page html) found),
        queuedOf seeds maxDepth depth (linksOf page html)), s') := by
  have hlinks := extractLinks_of_joins htame.hrefs
  have hnoted : noteLinks seeds maxDepth page depth (linksOf page html) found = _ :=
    noteLinks_of_followable htame.links found
  have hsrcs := extractScriptSrcs_of_joins htame.srcs
  obtain ⟨s', hscripts⟩ := Effect.foldl_of_ok
    (f := visitScript (serving w site) client) (g := noteScript w client site)
    (fun src hsrc b s ↦ visitScript_of_tame (htame.scripts src hsrc) b s)
    (noteAll page (linksOf page html) found) s
  refine ⟨s', ?_⟩
  unfold readHtml
  rw [Effect.bind_of_ok (Effect.ofExcept_of_ok hlinks s),
    Effect.bind_of_ok (Effect.ofExcept_of_ok hnoted s)]
  dsimp only
  rw [Effect.bind_of_ok (Effect.ofExcept_of_ok hsrcs s), Effect.bind_of_ok hscripts,
    Effect.pure_apply]

theorem tame_of_readHtml {html : String} {r : Discovered × List (String × ℕ)} {s s' : History}
    (hrun : readHtml (serving w site) client seeds maxDepth page depth found html s = (.ok r, s')) :
    HtmlTame w client site seeds maxDepth page depth html := by
  rw [readHtml, Effect.ofExcept_bind_eq_ok_iff] at hrun
  obtain ⟨links, hlinks, hrun⟩ := hrun
  rw [Effect.ofExcept_bind_eq_ok_iff] at hrun
  obtain ⟨⟨found', queued⟩, hnoted, hrun⟩ := hrun
  dsimp only at hrun
  rw [Effect.ofExcept_bind_eq_ok_iff] at hrun
  obtain ⟨srcs, hsrcs, hrun⟩ := hrun
  obtain ⟨found'', s₁, hscripts, -⟩ := Effect.exists_of_bind_ok hrun
  have hhrefs := joins_of_extractLinks hlinks
  have hjoins := joins_of_extractScriptSrcs hsrcs
  obtain rfl := Except.ok.inj ((extractLinks_of_joins hhrefs).symm.trans hlinks)
  obtain rfl := Except.ok.inj ((extractScriptSrcs_of_joins hjoins).symm.trans hsrcs)
  refine ⟨hhrefs, followable_of_noteLinks hnoted, hjoins, fun src hsrc ↦ ?_⟩
  obtain ⟨b, s₂, b', s₃, hscript⟩ := Effect.exists_of_foldl_ok hscripts hsrc
  exact tame_of_visitScript hscript

theorem joins_of_readScript {js : String} {r : Discovered × List (String × ℕ)} {s s' : History}
    (hrun : readScript page found js s = (.ok r, s')) : ∀ path ∈ pathsOf js, Joins page path := by
  rw [readScript] at hrun
  generalize hendpoints : extractJsEndpoints page js = endpoints at hrun
  obtain ⟨endpoints', rfl, -⟩ := Effect.ofExcept_bind_eq_ok_iff.mp hrun
  exact joins_of_extractJsEndpoints hendpoints

theorem visit_of_tame (hfetch : fetchOf w client site page = .ok res)
    (htame : PageTame w client site seeds maxDepth page depth res) (s : History) :
    ∃ s', visit (serving w site) client seeds maxDepth page depth found s =
      (.ok (noted w client site seeds maxDepth page depth res found), s') := by
  obtain ⟨s₁, hget⟩ := get_serving_of_ok hfetch s
  unfold PageTame at htame
  rw [visit_eq, Effect.bind_of_ok hget, noted]
  split_ifs at htame ⊢ with hhtml hscript
  · exact readHtml_of_tame htame s₁
  · have hextract := extractJsEndpoints_of_joins (htame hscript)
    rw [readScript, Effect.bind_of_ok (Effect.ofExcept_of_ok hextract s₁)]
    exact ⟨s₁, rfl⟩
  · exact ⟨s₁, rfl⟩

theorem tame_of_visit {r : Discovered × List (String × ℕ)} {s s' : History}
    (hrun : visit (serving w site) client seeds maxDepth page depth found s = (.ok r, s')) :
    ∃ res, fetchOf w client site page = .ok res ∧
      PageTame w client site seeds maxDepth page depth res := by
  rw [visit_eq] at hrun
  obtain ⟨res, s₁, hget, hrun⟩ := Effect.exists_of_bind_ok hrun
  refine ⟨res, fetchOf_of_get hget, ?_⟩
  unfold PageTame
  split_ifs at hrun ⊢ with hhtml hscript
  · exact tame_of_readHtml hrun
  · exact fun _ ↦ joins_of_readScript hrun
  · exact fun h ↦ absurd h hscript

/-! ## Crawls -/

/-- The crawl from a state of its loop ends with what it has found, all pages on the way being
tame. -/
inductive Crawls (w : World) (client : ScopedHttpClient) (site : Site) (seeds : List String)
    (maxDepth : ℤ) (maxPages : ℕ) :
    List String → Discovered → List (String × ℕ) → Discovered → Prop where
  | finished {seen found} : Crawls w client site seeds maxDepth maxPages seen found [] found
  | full {seen found entry queue} (hfull : maxPages ≤ seen.length) :
      Crawls w client site seeds maxDepth maxPages seen found (entry :: queue) found
  | skipped {seen found url depth queue found'} (hroom : seen.length < maxPages)
      (hseen : stripFragment url ∈ seen)
      (hrest : Crawls w client site seeds maxDepth maxPages seen found queue found') :
      Crawls w client site seeds maxDepth maxPages seen found ((url, depth) :: queue) found'
  | visited {seen found url depth queue found' res} (hroom : seen.length < maxPages)
      (hnew : stripFragment url ∉ seen)
      (hfetch : fetchOf w client site (stripFragment url) = .ok res)
      (htame : PageTame w client site seeds maxDepth (stripFragment url) depth res)
      (hrest : Crawls w client site seeds maxDepth maxPages (stripFragment url :: seen)
        (noted w client site seeds maxDepth (stripFragment url) depth res found).1
        (queue ++ (noted w client site seeds maxDepth (stripFragment url) depth res found).2)
        found') :
      Crawls w client site seeds maxDepth maxPages seen found ((url, depth) :: queue) found'

variable {maxPages : ℕ} {seen : List String} {queue : List (String × ℕ)} {found' : Discovered}

theorem crawl_of_crawls
    (hcrawls : Crawls w client site seeds maxDepth maxPages seen found queue found') (s : History) :
    ∃ s', crawl (serving w site) client seeds maxDepth maxPages seen found queue s =
      (.ok found', s') := by
  induction hcrawls generalizing s with
  | finished =>
      rw [crawl]
      exact ⟨s, rfl⟩
  | full hfull =>
      rw [crawl, dif_neg (not_lt.mpr hfull)]
      exact ⟨s, rfl⟩
  | skipped hroom hseen _ ih =>
      rw [crawl, dif_pos hroom, if_pos hseen]
      exact ih s
  | visited hroom hnew hfetch htame _ ih =>
      obtain ⟨s₁, hvisit⟩ := visit_of_tame hfetch htame s
      rw [crawl, dif_pos hroom, if_neg hnew, Effect.bind_of_ok hvisit]
      exact ih s₁

theorem crawls_of_crawl {s s' : History}
    (hrun : crawl (serving w site) client seeds maxDepth maxPages seen found queue s =
      (.ok found', s')) :
    Crawls w client site seeds maxDepth maxPages seen found queue found' := by
  induction seen, found, queue using crawl.induct maxPages generalizing s with
  | case1 seen found =>
      rw [crawl] at hrun
      obtain ⟨rfl, -⟩ := Effect.eq_of_pure hrun
      exact .finished
  | case2 seen found url depth queue hroom hseen ih =>
      rw [crawl, dif_pos hroom, if_pos hseen] at hrun
      exact .skipped hroom hseen (ih hrun)
  | case3 seen found url depth queue hroom hnew ih =>
      rw [crawl, dif_pos hroom, if_neg hnew] at hrun
      obtain ⟨r, s₁, hvisit, hrest⟩ := Effect.exists_of_bind_ok hrun
      obtain ⟨res, hfetch, htame⟩ := tame_of_visit hvisit
      obtain ⟨s₂, hvisit'⟩ : ∃ s₂, visit _ _ _ _ _ depth found s = (.ok _, s₂) :=
        visit_of_tame hfetch htame s
      obtain ⟨rfl, -⟩ := Effect.ok_unique hvisit' hvisit
      exact .visited hroom hnew hfetch htame (ih _ _ hrest)
  | case4 seen found url depth queue hfull =>
      rw [crawl, dif_neg hfull] at hrun
      obtain ⟨rfl, -⟩ := Effect.eq_of_pure hrun
      exact .full (not_lt.mp hfull)

/-! ## The report -/

/-- What was found can be located, and where it was found fits into a summary. -/
def EntryFits (entry : String × String) : Prop :=
  Locatable entry.1 ∧ ∀ loc, locationOf entry.1 = .ok loc → loc.host ≠ "" →
    ("discovered via " ++ entry.2).length ≤ maxSummary

variable {request : EngineRunRequest}

theorem accepted_endpoint {loc : Location} {url how : String} :
    (endpoint loc url how).Accepted ↔ ("discovered via " ++ how).length ≤ maxSummary :=
  and_iff_right id_ok

theorem returnsIff_reportEndpoint (entry : String × String) :
    Effect.ReturnsIff (reportEndpoint w request entry) (EntryFits entry) := by
  unfold reportEndpoint EntryFits
  cases hloc : locationOf entry.1 with
  | error e =>
      have hnot : ¬ Locatable entry.1 := fun h ↦ by
        obtain ⟨loc, hok⟩ := exists_locationOf_iff.mpr h
        rw [hloc] at hok
        exact absurd hok (by simp)
      intro s
      simp [Effect.bind_apply, hnot]
  | ok loc =>
      have hlocatable : Locatable entry.1 := exists_locationOf_iff.mp ⟨loc, hloc⟩
      refine Effect.ReturnsIff.bind_of_ok (a := loc) (fun s ↦ ⟨s, rfl⟩) ?_
      split_ifs with hhost
      · exact (Effect.ReturnsIff.pure _).congr (by simp [hlocatable, hhost])
      · refine returnsIff_newObservations.congr ?_
        simp [hlocatable, hhost, accepted_endpoint]

theorem returnsIff_toObservations (found : Discovered) :
    Effect.ReturnsIff (toObservations w request found) (∀ entry ∈ found.entries, EntryFits entry) := by
  refine (Effect.ReturnsIff.collect fun entry _ ↦ returnsIff_reportEndpoint entry).congr ?_
  exact forall_congr' fun entry ↦ imp_congr_left (List.mem_insertionSort _)

/-- The crawl ends, and all that it has found can be reported. -/
def CrawlTame (w : World) (client : ScopedHttpClient) (site : Site) (request : EngineRunRequest) :
    Prop :=
  ∃ maxPages maxDepth found,
    pyInt (Json.getD request.options "max_pages" (.num defaultMaxPages)) = .ok maxPages ∧
    pyInt (Json.getD request.options "max_depth" (.num defaultMaxDepth)) = .ok maxDepth ∧
    Crawls w client site request.seedUrls maxDepth maxPages.toNat [] .empty
      (request.seedUrls.map fun u ↦ (u, 0)) found ∧
    ∀ entry ∈ found.entries, EntryFits entry

theorem returnsIff_analyze :
    Effect.ReturnsIff (adapter.analyze (serving w site) request client)
      (CrawlTame w client site request) := by
  intro s
  unfold adapter CrawlTame
  dsimp only
  generalize pyInt (Json.getD request.options "max_pages" (.num defaultMaxPages)) = maxPages
  generalize pyInt (Json.getD request.options "max_depth" (.num defaultMaxDepth)) = maxDepth
  simp only [Effect.ofExcept_bind_eq_ok_iff]
  constructor
  · rintro ⟨obs, s', n, rfl, d, rfl, hrun⟩
    obtain ⟨found, s₁, hcrawl, hreport⟩ := Effect.exists_of_bind_ok hrun
    refine ⟨n, d, found, rfl, rfl, crawls_of_crawl hcrawl, ?_⟩
    exact (returnsIff_toObservations found s₁).mp ⟨obs, s', hreport⟩
  · rintro ⟨n, d, found, rfl, rfl, hcrawls, hfits⟩
    obtain ⟨s₁, hcrawl⟩ := crawl_of_crawls hcrawls s
    have hreturns : Effect.ReturnsIff (toObservations (serving w site) request found) _ :=
      returnsIff_toObservations found
    obtain ⟨obs, s', hreport⟩ := (hreturns s₁).mpr hfits
    exact ⟨obs, s', n, rfl, d, rfl, (Effect.bind_of_ok hcrawl _).trans hreport⟩

end Vantage.Adapters.Native.Crawler
