import Vantage.Adapters.Native.Crawler
import Vantage.Adapters.Native.Fingerprint
import Vantage.Adapters.Native.Tls
import Vantage.Lib.ExceptList

/-!
# What native engines reach

Each analysis is followed twice: what it sends is permitted whatever is
answered, and when all answers are harmless so is what it reports.
-/

namespace Vantage.Adapters.Native

variable {w : World} {c : ScopedHttpClient} {request : EngineRunRequest} {P C : Event → Prop}
  {K : Detection → Prop}

/-- All observations are made of detections of a kind. -/
def AllReport (K : Detection → Prop) (obs : List Observation) : Prop :=
  ∀ o ∈ obs, ∃ d, K d ∧ Reports d o

theorem allReport_append {obs obs' : List Observation} (h : AllReport K obs) (h' : AllReport K obs') :
    AllReport K (obs ++ obs') := fun o ho ↦ (List.mem_append.mp ho).elim (h o) (h' o)

theorem logs_detections (hquiet : World.Quiet P) {engine : NativeEngine}
    {detections : List Detection} (hK : ∀ d ∈ detections, K d) :
    Effect.Logs P C (newObservations w engine request detections) (AllReport K) := by
  refine (logs_newObservations hquiet).mono fun obs hobs o ho ↦ ?_
  obtain ⟨d, hd, hreports⟩ := hobs o ho
  exact ⟨d, hK d hd, hreports⟩

/-! ## Seeds that are fetched once -/

theorem logs_seed {engine : NativeEngine} {findings : Location → FetchResult → List Detection}
    (h : Permits w c P) {url : String}
    (hK : ∀ res loc, Answered w c C "GET" url res → res.ok = true → locationOf res.url = .ok loc →
      ∀ d ∈ findings loc res, K d) :
    Effect.Logs P C (do
      let res ← c.get w url
      if !res.ok then pure []
      else
        let loc ← Effect.ofExcept (locationOf res.url)
        newObservations w engine request (findings loc res) : Action (List Observation))
      (AllReport K) := by
  refine Effect.Logs.bind (logs_fetch h "GET" url) fun res ↦ ?_
  cases hok : res.ok with
  | false => exact Effect.Logs.pure fun _ ↦ by simp [AllReport]
  | true =>
      refine Effect.Logs.bind (Effect.Logs.ofExcept fun loc hloc ↦ hloc) fun loc ↦ ?_
      refine (logs_newObservations h.toQuiet).mono fun obs hobs hloc hanswered o ho ↦ ?_
      obtain ⟨d, hd, hreports⟩ := hobs o ho
      exact ⟨d, hK res loc hanswered hok hloc d hd, hreports⟩

theorem logs_headers (h : Permits w c P)
    (hK : ∀ url ∈ request.seedUrls, ∀ res loc, Answered w c C "GET" url res → res.ok = true →
      locationOf res.url = .ok loc → ∀ d ∈ Headers.findings loc res, K d) :
    Effect.Logs P C (Headers.adapter.analyze w request c) (AllReport K) :=
  Effect.Logs.collect fun url hurl ↦ logs_seed h (hK url hurl)

theorem logs_fingerprint (h : Permits w c P)
    (hK : ∀ url ∈ request.seedUrls, ∀ res loc, Answered w c C "GET" url res → res.ok = true →
      locationOf res.url = .ok loc → ∀ d ∈ Fingerprint.findings loc res, K d) :
    Effect.Logs P C (Fingerprint.adapter.analyze w request c) (AllReport K) :=
  Effect.Logs.collect fun url hurl ↦ logs_seed h (hK url hurl)

/-! ## TLS -/

namespace Tls

/-- The detections that an inspection can lead to. -/
def Detects (info : TlsInfo) (d : Detection) : Prop :=
  ∃ detectorId title severity cwe description remediation summary,
    d = detection info detectorId title severity cwe description remediation summary

theorem detects_of_mem_protocolFindings {info : TlsInfo} {d : Detection}
    (h : d ∈ protocolFindings info) : Detects info d := by
  unfold protocolFindings at h
  split at h
  · exact absurd h List.not_mem_nil
  · obtain ⟨-, h⟩ := List.mem_ite_nil_right.mp h
    rw [List.mem_singleton.mp h]
    exact ⟨_, _, _, _, _, _, _, rfl⟩

theorem detects_of_mem_expiryFindings {info : TlsInfo} {notAfter now : Time} {d : Detection}
    (h : d ∈ expiryFindings info notAfter now) : Detects info d := by
  unfold expiryFindings at h
  dsimp only at h
  split_ifs at h
  · rw [List.mem_singleton.mp h]
    exact ⟨_, _, _, _, _, _, _, rfl⟩
  · rw [List.mem_singleton.mp h]
    exact ⟨_, _, _, _, _, _, _, rfl⟩
  · exact absurd h List.not_mem_nil

theorem detects_of_mem_selfSignedFindings {info : TlsInfo} {d : Detection}
    (h : d ∈ selfSignedFindings info) : Detects info d := by
  obtain ⟨-, h⟩ := List.mem_ite_nil_right.mp h
  rw [List.mem_singleton.mp h]
  exact ⟨_, _, _, _, _, _, _, rfl⟩

theorem logs_evaluate (hquiet : World.Quiet P) {info : TlsInfo} (hK : ∀ d, Detects info d → K d) :
    Effect.Logs P C (evaluate w request info) (AllReport K) := by
  unfold evaluate
  split_ifs
  · exact Effect.Logs.pure (by simp [AllReport])
  · refine Effect.Logs.bind (logs_detections hquiet fun d hd ↦
      hK d (detects_of_mem_protocolFindings hd)) fun protocol ↦ ?_
    have hrest : ∀ expiry : List Observation, Effect.Logs P C (do
        let selfSigned ← newObservations w engine request (selfSignedFindings info)
        pure (protocol ++ expiry ++ selfSigned) : Action (List Observation)) fun obs ↦
          AllReport K expiry → AllReport K protocol → AllReport K obs := by
      intro expiry
      refine Effect.Logs.bind (logs_detections hquiet fun d hd ↦
        hK d (detects_of_mem_selfSignedFindings hd)) fun selfSigned ↦ Effect.Logs.pure ?_
      exact fun hselfSigned hexpiry hprotocol ↦
        allReport_append (allReport_append hprotocol hexpiry) hselfSigned
    cases info.notAfter with
    | none =>
        exact (hrest []).mono fun obs hobs ↦ hobs (by simp [AllReport])
    | some notAfter =>
        refine Effect.Logs.bind (World.logs_utcnow hquiet) fun now ↦ ?_
        refine Effect.Logs.bind (logs_detections hquiet fun d hd ↦
          hK d (detects_of_mem_expiryFindings hd)) fun expiry ↦ ?_
        exact (hrest expiry).mono fun obs hobs hexpiry _ hprotocol ↦ hobs hexpiry hprotocol

theorem logs_handshake {host : String} {port : ℤ} (hP : ∀ info, P (.handshake host port info)) :
    Effect.Logs P C (w.handshake host port) fun info ↦
      ∃ s, info = w.inspect s host port ∧ C (.handshake host port info) := fun s ↦
  ⟨[_], rfl, List.forall_mem_singleton.mpr (hP _), fun hC _ hinfo ↦
    ⟨s, (Except.ok.inj hinfo).symm, Except.ok.inj hinfo ▸ List.forall_mem_singleton.mp hC⟩⟩

/-- Handshakes are made with the hosts of the seeds. -/
theorem logs_analyze (hquiet : World.Quiet P)
    (hP : ∀ targets, targetsOf request.seedUrls = .ok targets → ∀ t ∈ targets, ∀ info,
      P (.handshake t.1 t.2 info))
    (hK : ∀ targets, targetsOf request.seedUrls = .ok targets → ∀ t ∈ targets, ∀ s,
      C (.handshake t.1 t.2 (w.inspect s t.1 t.2)) →
        ∀ d, Detects (w.inspect s t.1 t.2) d → K d) :
    Effect.Logs P C (adapter.analyze w request c) (AllReport K) := by
  refine Effect.Logs.bind_of_returns (Effect.Logs.ofExcept fun _ _ ↦ True.intro)
    (Effect.Returns.ofExcept fun targets htargets ↦ htargets) fun targets htargets ↦ ?_
  apply Effect.Logs.collect
  intro t ht
  refine Effect.Logs.bind (logs_handshake (hP targets htargets t ht)) fun info ↦ ?_
  refine (logs_evaluate (K := fun d ↦ (∃ s, info = w.inspect s t.1 t.2 ∧
    C (.handshake t.1 t.2 info)) → K d) hquiet ?_).mono fun obs hobs hinfo o ho ↦ ?_
  · rintro d hd ⟨s, rfl, hC⟩
    exact hK targets htargets t ht s hC d hd
  · obtain ⟨d, hd, hreports⟩ := hobs o ho
    exact ⟨d, hd hinfo, hreports⟩

end Tls

/-! ## The crawl -/

namespace Crawler

variable {D : String → Prop} {seeds : List String} {maxDepth : ℤ} {page src : String}
  {found : Discovered}

/-- All URLs that are noted have the property. -/
def Notes (D : String → Prop) (found : Discovered) : Prop := ∀ e ∈ found.entries, D e.1

theorem notes_empty : Notes D (.empty : Discovered) := by simp [Notes, Dict.empty]

theorem notes_setDefault {url how : String} (hurl : D url) (h : Notes D found) :
    Notes D (found.setDefault url how) := by
  intro e he
  rcases Dict.key_of_mem_setDefault he with hkey | hkey
  · rw [hkey]
    exact hurl
  · obtain ⟨e', he', hkey⟩ := List.mem_map.mp hkey
    rw [← hkey]
    exact h e' he'

theorem notes_noteEndpoints {endpoints : List String} (hendpoints : ∀ ep ∈ endpoints, D ep)
    (h : Notes D found) : Notes D (noteEndpoints src endpoints found) := by
  induction endpoints generalizing found with
  | nil => exact h
  | cons ep endpoints ih =>
      have hrest := fun ep' hep' ↦ hendpoints ep' (List.mem_cons_of_mem _ hep')
      exact ih hrest (notes_setDefault (hendpoints ep List.mem_cons_self) h)

theorem noteLinks_cons_ok {depth : ℕ} {link : String} {links : List String}
    {r : Discovered × List (String × ℕ)}
    (hrun : noteLinks seeds maxDepth page depth (link :: links) found = .ok r) :
    ∃ r', noteLinks seeds maxDepth page depth links (found.setDefault link ("html:" ++ page)) =
      .ok r' ∧ r.1 = r'.1 := by
  unfold noteLinks at hrun
  dsimp only at hrun
  split_ifs at hrun
  · obtain ⟨follow, -, hrun⟩ := ExceptList.exists_of_bind_ok hrun
    obtain ⟨r', hrest, hrun⟩ := ExceptList.exists_of_bind_ok hrun
    obtain rfl := Except.ok.inj hrun
    exact ⟨r', hrest, rfl⟩
  · obtain ⟨follow, -, hrun⟩ := ExceptList.exists_of_bind_ok hrun
    obtain ⟨r', hrest, hrun⟩ := ExceptList.exists_of_bind_ok hrun
    obtain rfl := Except.ok.inj hrun
    exact ⟨r', hrest, rfl⟩

theorem notes_noteLinks {depth : ℕ} {links : List String} {r : Discovered × List (String × ℕ)}
    (hlinks : ∀ link ∈ links, D link)
    (hrun : noteLinks seeds maxDepth page depth links found = .ok r) (h : Notes D found) :
    Notes D r.1 := by
  induction links generalizing found r with
  | nil =>
      obtain rfl := Except.ok.inj hrun
      exact h
  | cons link links ih =>
      obtain ⟨r', hrest, hr⟩ := noteLinks_cons_ok hrun
      rw [hr]
      have htail := fun link' hlink' ↦ hlinks link' (List.mem_cons_of_mem _ hlink')
      exact ih htail hrest (notes_setDefault (hlinks link List.mem_cons_self) h)

/-- Whatever an answer leads to has the property. -/
structure Yields (w : World) (c : ScopedHttpClient) (C : Event → Prop) (D : String → Prop) :
    Prop where
  links : ∀ page res links, Answered w c C "GET" page res → res.ok = true →
    extractLinks page res.body = .ok links → ∀ link ∈ links, D link
  endpoints : ∀ src res endpoints, Answered w c C "GET" src res → res.ok = true →
    extractJsEndpoints src res.body = .ok endpoints → ∀ ep ∈ endpoints, D ep

variable (h : Permits w c P) (hyields : Yields w c C D)

include h hyields

theorem logs_visitScript (found : Discovered) (src : String) :
    Effect.Logs P C (visitScript w c found src) fun found' ↦ Notes D found → Notes D found' := by
  unfold visitScript
  refine Effect.Logs.bind (logs_fetch h "GET" src) fun js ↦ ?_
  cases hok : js.ok with
  | false =>
      rw [if_neg Bool.false_ne_true]
      exact Effect.Logs.pure fun _ hfound ↦ hfound
  | true =>
      rw [if_pos rfl]
      apply Effect.Logs.bind (Q := fun eps ↦ extractJsEndpoints src js.body = .ok eps)
      · exact Effect.Logs.ofExcept fun _ ↦ id
      · intro eps
        apply Effect.Logs.pure
        intro heps hanswered hfound
        exact notes_noteEndpoints (hyields.endpoints src js eps hanswered hok heps) hfound

theorem logs_visit (page : String) (depth : ℕ) (found : Discovered) :
    Effect.Logs P C (visit w c seeds maxDepth page depth found) fun r ↦
      Notes D found → Notes D r.1 := by
  unfold visit
  refine Effect.Logs.bind (logs_fetch h "GET" page) fun res ↦ ?_
  split_ifs with hnot hjs
  · have hok : res.ok = true := (Bool.and_eq_true _ _ ▸ hjs).1
    apply Effect.Logs.bind (Q := fun eps ↦ extractJsEndpoints page res.body = .ok eps)
    · exact Effect.Logs.ofExcept fun _ ↦ id
    · intro eps
      apply Effect.Logs.pure
      intro heps hanswered hfound
      exact notes_noteEndpoints (hyields.endpoints page res eps hanswered hok heps) hfound
  · exact Effect.Logs.pure fun _ hfound ↦ hfound
  · have hok : res.ok = true := by
      cases hok : res.ok <;> simp_all
    apply Effect.Logs.bind (Q := fun links ↦ extractLinks page res.body = .ok links)
    · exact Effect.Logs.ofExcept fun _ ↦ id
    · intro links
      apply Effect.Logs.bind (Q := fun r ↦ noteLinks seeds maxDepth page depth links found = .ok r)
      · exact Effect.Logs.ofExcept fun _ ↦ id
      · intro r
        apply Effect.Logs.bind (Q := fun _ ↦ True)
        · exact Effect.Logs.ofExcept fun _ _ ↦ True.intro
        · intro srcs
          refine Effect.Logs.bind (Effect.Logs.foldl (R := Notes D) r.1 fun src _ found' ↦
            logs_visitScript h hyields found' src) fun found' ↦ ?_
          apply Effect.Logs.pure
          intro hscripts _ hr hlinks hanswered hfound
          apply hscripts
          exact notes_noteLinks (hyields.links page res links hanswered hok hlinks) hr hfound

/-- By induction along the page loop. -/
theorem logs_crawl (maxPages : ℕ) (seen : List String) (found : Discovered)
    (queue : List (String × ℕ)) :
    Effect.Logs P C (crawl w c seeds maxDepth maxPages seen found queue) fun found' ↦
      Notes D found → Notes D found' := by
  induction seen, found, queue using crawl.induct maxPages with
  | case1 seen found =>
      rw [crawl]
      exact Effect.Logs.pure id
  | case2 seen found url depth queue hmore hseen ih =>
      rw [crawl, dif_pos hmore, if_pos hseen]
      exact ih
  | case3 seen found url depth queue hmore hseen ih =>
      rw [crawl, dif_pos hmore, if_neg hseen]
      refine Effect.Logs.bind (logs_visit h hyields _ depth found) fun r ↦ ?_
      exact (ih r.1 r.2).mono fun found' hrest hvisit hfound ↦ hrest (hvisit hfound)
  | case4 seen found url depth queue hmore =>
      rw [crawl, dif_neg hmore]
      exact Effect.Logs.pure id

/-- What the crawl finds is reported. -/
theorem logs_analyze (hK : ∀ url how loc, D url → locationOf url = .ok loc → loc.host ≠ "" →
      K (endpoint loc url how)) :
    Effect.Logs P C (adapter.analyze w request c) (AllReport K) := by
  refine Effect.Logs.bind (Effect.Logs.ofExcept fun _ _ ↦ True.intro) fun maxPages ↦ ?_
  refine Effect.Logs.bind (Effect.Logs.ofExcept fun _ _ ↦ True.intro) fun maxDepth ↦ ?_
  refine Effect.Logs.bind (logs_crawl h hyields _ _ _ _) fun found ↦ ?_
  refine (Effect.Logs.collect (R := fun o ↦ Notes D found → ∃ d, K d ∧ Reports d o)
    fun entry hentry ↦ ?_).mono fun obs hobs hfound _ _ o ho ↦ hobs o ho (hfound notes_empty)
  have hmem := (List.mem_insertionSort _).mp hentry
  apply Effect.Logs.bind (Q := fun loc ↦ locationOf entry.1 = .ok loc)
  · exact Effect.Logs.ofExcept fun _ ↦ id
  · intro loc
    split_ifs with hhost
    · exact Effect.Logs.pure fun _ ↦ by simp
    · refine (logs_newObservations h.toQuiet).mono fun obs hobs hloc o ho hfound ↦ ?_
      obtain ⟨d, hd, hreports⟩ := hobs o ho
      rw [List.mem_singleton.mp hd] at hreports
      exact ⟨_, hK entry.1 entry.2 loc (hfound entry hmem) hloc hhost, hreports⟩

end Crawler

/-! ## The lifecycle -/

theorem map_revalidate (obs : List Observation) : obs.map Observation.revalidate = obs :=
  (List.map_congr_left fun o _ ↦ o.revalidate_eq).trans (List.map_id _)

theorem logs_lifecycle {a : NativeAdapter}
    (h : ∀ c, defaultClientFactory request = .ok c → Effect.Logs P C (a.analyze w request c)
      (AllReport K)) :
    Effect.Logs P C ((a.toEngineAdapter w).lifecycle request) (AllReport K) := by
  have hprepare : Effect.Returns ((a.toEngineAdapter w).prepareTarget request) fun r ↦
      r.1 = request ∧ defaultClientFactory request = .ok r.2 := by
    intro s r s' hrun
    obtain ⟨c, s₁, hc, hrun⟩ := Effect.exists_of_bind_ok hrun
    obtain ⟨rfl, -⟩ := Effect.eq_of_pure hrun
    exact ⟨rfl, congrArg Prod.fst hc⟩
  refine Effect.Logs.bind_of_returns ?_ hprepare ?_
  · refine Effect.Logs.bind (Effect.Logs.ofExcept fun _ _ ↦ True.intro) fun c ↦ ?_
    exact Effect.Logs.pure fun _ ↦ True.intro
  · rintro ⟨_, c⟩ ⟨rfl, hc⟩
    refine Effect.Logs.bind (h c hc) fun found ↦ ?_
    refine Effect.Logs.silent (fun _ ↦ rfl) fun log obs hobs hfound ↦ ?_
    have hobs : found.map Observation.revalidate = obs := Except.ok.inj hobs
    have hsame : found = obs := (map_revalidate found).symm.trans hobs
    exact hsame ▸ hfound

/-- What the analysis returns is returned. -/
theorem returns_lifecycle {a : NativeAdapter} {Q : List Observation → Prop}
    (h : ∀ c, defaultClientFactory request = .ok c → Effect.Returns (a.analyze w request c) Q) :
    Effect.Returns ((a.toEngineAdapter w).lifecycle request) Q := by
  intro s obs s' hrun
  obtain ⟨prepared, s₁, hprepare, hrun⟩ := Effect.exists_of_bind_ok hrun
  obtain ⟨c, s₂, hc, hprepare⟩ := Effect.exists_of_bind_ok hprepare
  obtain ⟨rfl, -⟩ := Effect.eq_of_pure hprepare
  obtain ⟨found, s₃, hfound, hrun⟩ := Effect.exists_of_bind_ok hrun
  have hobs : found.map Observation.revalidate = obs := Except.ok.inj (congrArg Prod.fst hrun)
  have hsame : found = obs := (map_revalidate found).symm.trans hobs
  exact hsame ▸ h c (congrArg Prod.fst hc) _ _ _ hfound

end Vantage.Adapters.Native
