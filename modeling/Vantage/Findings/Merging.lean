import Mathlib
import Vantage.Findings.Reporting
import Vantage.Lib.Joined

/-!
# What merging confuses and what it loses

The correlation key and the digest of evidence are hashes of texts that are put
together from untrusted fields without escaping. The confidence of a finding is
computed anew from its engines.
-/

namespace Vantage.Findings

open Text
open Grouping hiding sortedSet sortedSet_congr

/-! ## Distinct issues -/

/-- A method or parameter counts as given when it is not empty. -/
def given (s : Option String) : Option String := s.filter (· ≠ "")

/-- Two observations of one issue. -/
structure Agree (o o' : Observation) : Prop where
  category : (classOf o).key = (classOf o').key
  host : o.location.host = o'.location.host
  port : o.location.port = o'.location.port
  endpoint : normalizeEndpoint o.location.path = normalizeEndpoint o'.location.path
  method : given o.location.method = given o'.location.method
  parameter : given o.location.parameter = given o'.location.parameter

/-- The fields that are joined to the text of the key. -/
def keyFields (o : Observation) : List String :=
  [(classOf o).key, o.location.host, toString o.location.port, normalizeEndpoint o.location.path,
    orElse o.location.method "*", orElse o.location.parameter "*"]

def bars (s : String) : ℕ := s.toList.count '|'

/-- Each field has as many separators in both observations, and a method or
parameter is given in both or in neither. -/
structure Aligned (o o' : Observation) : Prop where
  bars : (keyFields o).map bars = (keyFields o').map bars
  method : (given o.location.method).isSome = (given o'.location.method).isSome
  parameter : (given o.location.parameter).isSome = (given o'.location.parameter).isSome

variable {sha256 : List UInt8 → String} {e : CorrelationEngine} {newId : ℕ → String}
  {observations : List Observation} {o o' : Observation} {f : UnifiedFinding}

theorem observationText_eq : observationText o = join "|" (keyFields o) := rfl

theorem orElse_eq (s : Option String) (d : String) : orElse s d = (given s).getD d := by
  cases s with
  | none => rfl
  | some v => by_cases h : v = "" <;> simp [orElse, given, Option.filter, h]

theorem given_eq_of_orElse {s s' : Option String} {d : String}
    (h : orElse s d = orElse s' d) (hsome : (given s).isSome = (given s').isSome) :
    given s = given s' := by
  rw [orElse_eq, orElse_eq] at h
  cases hs : given s <;> cases hs' : given s' <;> simp_all

theorem agree_of_aligned (htext : observationText o = observationText o') (h : Aligned o o') :
    Agree o o' := by
  have hfields : keyFields o = keyFields o' := by
    have hjoin := congrArg String.toList htext
    simp only [observationText_eq, join, String.toList_ofList] at hjoin
    have hcount : ((keyFields o).map String.toList).map (List.count '|') =
        ((keyFields o').map String.toList).map (List.count '|') := by
      rw [List.map_map, List.map_map]
      exact h.bars
    have hinjective : Function.Injective String.toList := fun _ _ ↦ String.toList_injective
    exact List.map_injective_iff.mpr hinjective (Joined.intercalate_inj hcount hjoin)
  simp only [keyFields, List.cons.injEq, and_true] at hfields
  obtain ⟨hcategory, hhost, hport, hendpoint, hmethod, hparameter⟩ := hfields
  exact ⟨hcategory, hhost, Int.repr_injective hport, hendpoint, given_eq_of_orElse hmethod h.method,
    given_eq_of_orElse hparameter h.parameter⟩

theorem Agree.aligned (h : Agree o o') : Aligned o o' := by
  have hfields : keyFields o = keyFields o' := by
    simp only [keyFields, orElse_eq, h.category, h.host, h.port, h.endpoint, h.method, h.parameter]
  exact ⟨by rw [hfields], by rw [h.method], by rw [h.parameter]⟩

/-- Observations whose texts coincide become one finding. -/
theorem exists_finding_of_text (ho : o ∈ observations) (ho' : o' ∈ observations)
    (h : observationText o = observationText o') : ∃ f ∈ e.correlate sha256 newId observations,
      o ∈ observationsOf sha256 observations f ∧ o' ∈ observationsOf sha256 observations f := by
  have hkey : observationKey sha256 o ∈
      (e.correlate sha256 newId observations).map UnifiedFinding.fingerprint :=
    mem_fingerprints.mpr (List.mem_map_of_mem ho)
  obtain ⟨f, hf, hfp⟩ := List.mem_map.mp hkey
  have hkey' : observationKey sha256 o' = observationKey sha256 o := by
    change fingerprint sha256 _ _ = fingerprint sha256 _ _
    unfold fingerprint
    exact congrArg (fun t : String ↦
      String.ofList ((sha256 (Utf8.encode t.toList)).toList.take 32)) h.symm
  refine ⟨f, hf, List.mem_filter.mpr ⟨ho, by simp [hfp]⟩, ?_⟩
  exact List.mem_filter.mpr ⟨ho', by simp [hfp, hkey']⟩

/-- No two issues are merged exactly when no two texts coincide with their
separators in different fields or with a placeholder spelled out. -/
theorem agree_iff_aligned (e : CorrelationEngine) (newId : ℕ → String)
    (hfree : CollisionFree sha256 observations) :
    (∀ f ∈ e.correlate sha256 newId observations, ∀ o ∈ observationsOf sha256 observations f,
      ∀ o' ∈ observationsOf sha256 observations f, Agree o o') ↔
      ∀ o ∈ observations, ∀ o' ∈ observations, observationText o = observationText o' →
        Aligned o o' := by
  constructor
  · intro hall o ho o' ho' htext
    obtain ⟨f, hf, hmem, hmem'⟩ : ∃ f ∈ e.correlate sha256 newId observations,
        o ∈ observationsOf sha256 observations f ∧ o' ∈ observationsOf sha256 observations f :=
      exists_finding_of_text ho ho' htext
    exact (hall f hf o hmem o' hmem').aligned
  · intro haligned f _ o hmem o' hmem'
    obtain ⟨ho, hkey⟩ := List.mem_filter.mp hmem
    obtain ⟨ho', hkey'⟩ := List.mem_filter.mp hmem'
    have htext : observationText o = observationText o' := by
      apply hfree o ho o' ho'
      rw [of_decide_eq_true hkey, of_decide_eq_true hkey']
    exact agree_of_aligned htext (haligned o ho o' ho' htext)

theorem agree_iff_aligned_demoReports :
    (∀ f ∈ demoEngine.correlate demoSha256 demoIds demoReports,
      ∀ o ∈ observationsOf demoSha256 demoReports f,
        ∀ o' ∈ observationsOf demoSha256 demoReports f, Agree o o') ↔
      ∀ o ∈ demoReports, ∀ o' ∈ demoReports, observationText o = observationText o' →
        Aligned o o' := agree_iff_aligned demoEngine demoIds collisionFree_demoReports

def reportAt (id path : String) (method parameter : Option String) : Observation :=
  { demoReport id "xss" .firm with
    location := .modelValidate
      { scheme := "https"
        host := "app.example"
        port := 443
        path := path
        method := method
        parameter := parameter } }

/-- A parameter of one page, and another page whose path contains the separator. -/
def splitReports : List Observation :=
  [reportAt "a" "/a|GET" none (some "q"), reportAt "b" "/a" (some "GET") (some "*|q")]

theorem not_agree_splitReports : CollisionFree demoSha256 splitReports ∧
    ¬ ∀ f ∈ demoEngine.correlate demoSha256 demoIds splitReports,
      ∀ o ∈ observationsOf demoSha256 splitReports f,
        ∀ o' ∈ observationsOf demoSha256 splitReports f, Agree o o' := by
  have htext : ∀ o ∈ splitReports, observationText o = "xss|app.example|443|/a|GET|*|q" := by
    intro o ho
    simp only [splitReports, List.mem_cons, List.not_mem_nil, or_false] at ho
    rcases ho with rfl | rfl <;> decide +kernel
  have hdiffer : normalizeEndpoint "/a|GET" ≠ normalizeEndpoint "/a" := by decide +kernel
  refine ⟨fun o ho o' ho' _ ↦ (htext o ho).trans (htext o' ho').symm, fun hall ↦ ?_⟩
  have hfirst : reportAt "a" "/a|GET" none (some "q") ∈ splitReports := List.mem_cons_self
  have hsecond : reportAt "b" "/a" (some "GET") (some "*|q") ∈ splitReports :=
    List.mem_cons_of_mem _ List.mem_cons_self
  have hmerged : ∃ f ∈ demoEngine.correlate demoSha256 demoIds splitReports,
      reportAt "a" "/a|GET" none (some "q") ∈ observationsOf demoSha256 splitReports f ∧
        reportAt "b" "/a" (some "GET") (some "*|q") ∈ observationsOf demoSha256 splitReports f :=
    exists_finding_of_text hfirst hsecond ((htext _ hfirst).trans (htext _ hsecond).symm)
  obtain ⟨f, hf, ho, ho'⟩ := hmerged
  exact hdiffer (hall f hf _ ho _ ho').endpoint

/-! ## Distinct evidence -/

/-- The method and the URL, which are printed as `None` when they are absent. -/
def requestText (ev : Evidence) : List Char :=
  match ev.request with
  | none => []
  | some m => (m.method.getD "None" ++ " " ++ m.url.getD "None").toList

def statusText (ev : Evidence) : List Char :=
  match ev.response.bind HttpMessage.status with
  | none => []
  | some code => (toString code).toList

/-- The fields that are fed to the digest, in front of the status. -/
def digestFields (ev : Evidence) : List (List Char) :=
  ev.summary.toList :: (sorted ev.matched).map String.toList ++ [requestText ev]

/-- The text that is digested. -/
def digestText (ev : Evidence) : List Char :=
  ev.kind.value.toList ++ ((digestFields ev).flatten ++ statusText ev)

/-- The digest tells the texts of these items apart. -/
def DigestFree (sha256 : List UInt8 → String) (items : List Evidence) : Prop :=
  ∀ ev ∈ items, ∀ ev' ∈ items, digest sha256 ev = digest sha256 ev' → digestText ev = digestText ev'

/-- Two items that say the same. -/
structure Counterpart (ev ev' : Evidence) : Prop where
  kind : ev.kind = ev'.kind
  summary : ev.summary = ev'.summary
  matched : sorted ev.matched = sorted ev'.matched
  request : (ev.request.map fun m ↦ (m.method, m.url)) = ev'.request.map fun m ↦ (m.method, m.url)
  status : ev.response.bind HttpMessage.status = ev'.response.bind HttpMessage.status

/-- The lengths of the summary, of the markers, and of the method and the URL. -/
def shape (ev : Evidence) : ℕ × List ℕ × Option (Option ℕ × Option ℕ) :=
  (ev.summary.length, (sorted ev.matched).map String.length,
    ev.request.map fun m ↦ (m.method.map String.length, m.url.map String.length))

variable {ev ev' : Evidence} {items : List Evidence}

theorem digest_eq (ev : Evidence) : digest sha256 ev = sha256 (Utf8.encode (digestText ev)) := by
  have htext : digestText ev = ev.kind.value.toList ++ ev.summary.toList ++
      (sorted ev.matched).flatMap String.toList ++ requestText ev ++ statusText ev := by
    simp only [digestText, digestFields, List.cons_append, List.flatten_cons, List.flatten_append,
      List.flatten_nil, List.append_nil, List.append_assoc, List.flatMap_def]
  rw [htext]
  rfl

/-- No name of a kind begins with another. -/
theorem kind_eq_of_startsWith {k k' : EvidenceKind} (h : k.value.toList <+: k'.value.toList) :
    k = k' := by
  have hall : ∀ k k' : EvidenceKind, k.value.toList.isPrefixOf k'.value.toList = true → k = k' := by
    intro k k'
    cases k <;> cases k' <;> decide +kernel
  exact hall k k' (List.isPrefixOf_iff_prefix.mpr h)

theorem kind_eq_of_text {l l' : List Char} {k k' : EvidenceKind}
    (h : k.value.toList ++ l = k'.value.toList ++ l') : k = k' := by
  have hk : k.value.toList <+: k'.value.toList ++ l' := ⟨l, h⟩
  rcases List.prefix_or_prefix_of_prefix hk (List.prefix_append _ l') with hpre | hpre
  · exact kind_eq_of_startsWith hpre
  · exact (kind_eq_of_startsWith hpre).symm

theorem toString_ne_empty (n : ℤ) : toString n ≠ "" := by
  cases n with
  | ofNat m => exact Nat.repr_ne_empty
  | negSucc m =>
      intro h
      have hlength : ("-" ++ Nat.repr (m + 1)).length = 0 := congrArg String.length h
      rw [String.length_append] at hlength
      exact absurd (Nat.eq_zero_of_add_eq_zero_right hlength) (by decide)

theorem status_eq_of_text (h : statusText ev = statusText ev') :
    ev.response.bind HttpMessage.status = ev'.response.bind HttpMessage.status := by
  unfold statusText at h
  cases hstatus : ev.response.bind HttpMessage.status with
  | none =>
      cases hstatus' : ev'.response.bind HttpMessage.status with
      | none => rfl
      | some code =>
          rw [hstatus, hstatus'] at h
          exact absurd (String.toList_eq_nil_iff.mp h.symm) (toString_ne_empty code)
  | some code =>
      cases hstatus' : ev'.response.bind HttpMessage.status with
      | none =>
          rw [hstatus, hstatus'] at h
          exact absurd (String.toList_eq_nil_iff.mp h) (toString_ne_empty code)
      | some code' =>
          rw [hstatus, hstatus'] at h
          exact congrArg some (Int.repr_injective (String.toList_injective h))

theorem getD_eq_of_length {s s' : Option String} {d : String}
    (hlength : s.map String.length = s'.map String.length)
    (h : s.getD d = s'.getD d) : s = s' := by
  cases s <;> cases s' <;> simp_all

theorem length_getD (s : Option String) :
    (s.getD "None").length = (s.map String.length).getD 4 := by
  cases s <;> rfl

theorem length_requestText (ev : Evidence) : (requestText ev).length =
    (ev.request.map fun m ↦ (m.method.map String.length, m.url.map String.length)).elim 0
      fun p ↦ p.1.getD 4 + (1 + p.2.getD 4) := by
  unfold requestText
  cases ev.request with
  | none => rfl
  | some m =>
      rw [Option.map_some, Option.elim_some, ← length_getD, ← length_getD, String.length_toList,
        String.length_append, String.length_append, Nat.add_assoc]
      rfl

theorem request_eq_of_text (h : requestText ev = requestText ev')
    (hshape : (ev.request.map fun m ↦ (m.method.map String.length, m.url.map String.length)) =
      ev'.request.map fun m ↦ (m.method.map String.length, m.url.map String.length)) :
    (ev.request.map fun m ↦ (m.method, m.url)) = ev'.request.map fun m ↦ (m.method, m.url) := by
  unfold requestText at h
  cases hrequest : ev.request with
  | none =>
      cases hrequest' : ev'.request with
      | none => rfl
      | some m' => simp [hrequest, hrequest'] at hshape
  | some m =>
      cases hrequest' : ev'.request with
      | none => simp [hrequest, hrequest'] at hshape
      | some m' =>
          simp only [hrequest, hrequest', Option.map_some, Option.some.injEq, Prod.mk.injEq]
            at hshape h
          obtain ⟨hmethod, hurl⟩ := hshape
          have hlength : (m.method.getD "None").length = (m'.method.getD "None").length := by
            rw [length_getD, length_getD, hmethod]
          simp only [String.toList_append, List.append_assoc] at h
          obtain ⟨hfirst, hrest⟩ := List.append_inj h hlength
          have hlast := (List.append_inj hrest rfl).2
          rw [Option.map_some, Option.map_some,
            getD_eq_of_length hmethod (String.toList_injective hfirst),
            getD_eq_of_length hurl (String.toList_injective hlast)]

theorem counterpart_of_shape (htext : digestText ev = digestText ev') (h : shape ev = shape ev') :
    Counterpart ev ev' := by
  obtain ⟨hsummary, hmatched, hrequest⟩ : ev.summary.length = ev'.summary.length ∧
      (sorted ev.matched).map String.length = (sorted ev'.matched).map String.length ∧ _ := by
    simpa [shape] using h
  have hkind : ev.kind = ev'.kind := kind_eq_of_text htext
  unfold digestText at htext
  rw [hkind, List.append_cancel_left_eq] at htext
  have hlengths : (digestFields ev).map List.length = (digestFields ev').map List.length := by
    have hmap : ∀ l : List String, (l.map String.toList).map List.length = l.map String.length := by
      intro l
      rw [List.map_map]
      exact List.map_congr_left fun s _ ↦ String.length_toList
    simp only [digestFields, List.map_cons, List.map_append, List.map_nil, hmap, hmatched,
      length_requestText, hrequest, String.length_toList, hsummary, List.cons_append]
  have hlength : (digestFields ev).flatten.length = (digestFields ev').flatten.length := by
    rw [List.length_flatten, List.length_flatten, hlengths]
  obtain ⟨hflatten, hstatus⟩ := List.append_inj htext hlength
  have hfields : digestFields ev = digestFields ev' :=
    List.eq_iff_flatten_eq.mpr ⟨hflatten, hlengths⟩
  obtain ⟨hfirst, hrest⟩ := List.cons.inj hfields
  obtain ⟨hmiddle, hlast⟩ := List.append_inj' hrest rfl
  have hinjective : Function.Injective String.toList := fun _ _ ↦ String.toList_injective
  exact ⟨hkind, String.toList_injective hfirst, List.map_injective_iff.mpr hinjective hmiddle,
    request_eq_of_text (List.singleton_inj.mp hlast) hrequest, status_eq_of_text hstatus⟩

theorem Counterpart.digestText_eq (h : Counterpart ev ev') : digestText ev = digestText ev' := by
  have hrequest : requestText ev = requestText ev' := by
    have hpairs := h.request
    unfold requestText
    cases hr : ev.request <;> cases hr' : ev'.request <;> simp_all
  have hstatus : statusText ev = statusText ev' := by
    unfold statusText
    rw [h.status]
  rw [digestText, digestText, digestFields, digestFields, h.kind, h.summary, h.matched, hrequest,
    hstatus]

theorem Counterpart.shape_eq (h : Counterpart ev ev') : shape ev = shape ev' := by
  have hrequest := congrArg (Option.map fun p : Option String × Option String ↦
    (p.1.map String.length, p.2.map String.length)) h.request
  rw [Option.map_map, Option.map_map] at hrequest
  rw [shape, shape, h.summary, h.matched]
  exact congrArg (fun r ↦ (_, _, r)) hrequest

theorem counterparts_iff (hfree : DigestFree sha256 items) :
    (∀ ev ∈ items, ∃ ev' ∈ distinctBy (digest sha256) items, Counterpart ev ev') ↔
      ∀ ev ∈ items, ∀ ev' ∈ items, digestText ev = digestText ev' → shape ev = shape ev' := by
  constructor
  · intro hall ev hev ev' hev' htext
    obtain ⟨kept, hkept, hsame⟩ := hall ev hev
    obtain ⟨kept', hkept', hsame'⟩ := hall ev' hev'
    have hdigest : digest sha256 kept = digest sha256 kept' := by
      rw [digest_eq, digest_eq, ← hsame.digestText_eq, ← hsame'.digestText_eq, htext]
    obtain rfl : kept = kept' :=
      List.inj_on_of_nodup_map (nodup_map_distinctBy _ _) hkept hkept' hdigest
    exact hsame.shape_eq.trans hsame'.shape_eq.symm
  · intro hshape ev hev
    have hdigest : digest sha256 ev ∈ (distinctBy (digest sha256) items).map (digest sha256) :=
      mem_map_distinctBy.mpr (List.mem_map_of_mem hev)
    obtain ⟨kept, hkept, hsame⟩ := List.mem_map.mp hdigest
    have hmem : kept ∈ items := mem_of_mem_distinctBy hkept
    have htext : digestText ev = digestText kept := hfree ev hev kept hmem hsame.symm
    exact ⟨kept, hkept, counterpart_of_shape htext (hshape ev hev kept hmem htext)⟩

/-- No evidence is lost exactly when no two items of the group spell the same
text with fields of different lengths. -/
theorem counterparts_iff_shape (e : CorrelationEngine) (id : String)
    (g : Group String Observation)
    (hfree : DigestFree sha256 (g.members.flatMap Observation.evidence)) :
    (∀ o ∈ g.members, ∀ ev ∈ o.evidence, ∃ ev' ∈ (e.merge sha256 id g).evidence,
      Counterpart ev ev') ↔
      ∀ ev ∈ g.members.flatMap Observation.evidence, ∀ ev' ∈ g.members.flatMap Observation.evidence,
        digestText ev = digestText ev' → shape ev = shape ev' := by
  rw [← counterparts_iff hfree]
  constructor
  · intro hall ev hev
    obtain ⟨o, ho, hev⟩ := List.mem_flatMap.mp hev
    exact hall o ho ev hev
  · intro hall o ho ev hev
    exact hall ev (List.mem_flatMap.mpr ⟨o, ho, hev⟩)

/-- The digests of the texts of the notes below. -/
def noteSha256 (m : List UInt8) : String :=
  if m = Utf8.encode "notecrawled a".toList then
    "33ba632ac63f33e9b3b9d92470fb4190fe8401a4c57ca7ffc6e8bbe792b4fd6f"
  else if m = Utf8.encode "notecrawled b".toList then
    "5dee87ed2c496b03847973266b307f73a5ca71ddf7804539e20fcce8abeffbc9"
  else if m = Utf8.encode "notereflected ab".toList then
    "4fe16d1ea2538b7559ad44402c9c4fd5a950310a09532bc2ba6cb1f37866c029"
  else ""

def note (summary : String) (matched : List String) (h : summary.length ≤ maxSummary) : Evidence where
  kind := .note
  engineId := "zap"
  summary := summary
  request := none
  response := none
  matched := matched
  data := []
  engineId_ok := demoEngineId_ok
  summary_ok := h

theorem crawledA_ok : "crawled a".length ≤ maxSummary := by decide +kernel

theorem crawledB_ok : "crawled b".length ≤ maxSummary := by decide +kernel

theorem reflectedA_ok : "reflected a".length ≤ maxSummary := by decide +kernel

theorem reflectedAb_ok : "reflected ab".length ≤ maxSummary := by decide +kernel

def noted (evidence : List Evidence) : Group String Observation :=
  ⟨"key", { demoReport "a" "xss" .firm with evidence := evidence }, []⟩

def crawledNotes : List Evidence := [note "crawled a" [] crawledA_ok, note "crawled b" [] crawledB_ok]

/-- The marker of the first continues its summary to that of the second. -/
def reflectedNotes : List Evidence :=
  [note "reflected a" ["b"] reflectedA_ok, note "reflected ab" [] reflectedAb_ok]

theorem digestFree_crawledNotes :
    DigestFree noteSha256 ((noted crawledNotes).members.flatMap Observation.evidence) := by
  have hne : digest noteSha256 (note "crawled a" [] crawledA_ok) ≠
      digest noteSha256 (note "crawled b" [] crawledB_ok) := by decide +kernel
  have hitems : (noted crawledNotes).members.flatMap Observation.evidence = crawledNotes := rfl
  rw [hitems]
  intro ev hev ev' hev' hdigest
  simp only [crawledNotes, List.mem_cons, List.not_mem_nil, or_false] at hev hev'
  rcases hev with rfl | rfl <;> rcases hev' with rfl | rfl
  · rfl
  · exact absurd hdigest hne
  · exact absurd hdigest.symm hne
  · rfl

theorem counterparts_iff_shape_crawledNotes :
    (∀ o ∈ (noted crawledNotes).members, ∀ ev ∈ o.evidence,
      ∃ ev' ∈ (demoEngine.merge noteSha256 "f" (noted crawledNotes)).evidence, Counterpart ev ev') ↔
      ∀ ev ∈ (noted crawledNotes).members.flatMap Observation.evidence,
        ∀ ev' ∈ (noted crawledNotes).members.flatMap Observation.evidence,
          digestText ev = digestText ev' → shape ev = shape ev' :=
  counterparts_iff_shape demoEngine "f" (noted crawledNotes) digestFree_crawledNotes

theorem lost_reflectedNotes :
    DigestFree noteSha256 ((noted reflectedNotes).members.flatMap Observation.evidence) ∧
      ¬ ∀ o ∈ (noted reflectedNotes).members, ∀ ev ∈ o.evidence,
        ∃ ev' ∈ (demoEngine.merge noteSha256 "f" (noted reflectedNotes)).evidence,
          Counterpart ev ev' := by
  have htext : ∀ ev ∈ reflectedNotes, digestText ev = "notereflected ab".toList := by
    intro ev hev
    simp only [reflectedNotes, List.mem_cons, List.not_mem_nil, or_false] at hev
    rcases hev with rfl | rfl <;> decide +kernel
  have hfree : DigestFree noteSha256 reflectedNotes :=
    fun ev hev ev' hev' _ ↦ (htext ev hev).trans (htext ev' hev').symm
  have hfirst : note "reflected a" ["b"] reflectedA_ok ∈ reflectedNotes := List.mem_cons_self
  have hsecond : note "reflected ab" [] reflectedAb_ok ∈ reflectedNotes :=
    List.mem_cons_of_mem _ List.mem_cons_self
  refine ⟨hfree, fun hall ↦ ?_⟩
  have hshape := (counterparts_iff hfree).mp (hall _ List.mem_cons_self) _ hfirst _ hsecond
    ((htext _ hfirst).trans (htext _ hsecond).symm)
  exact absurd (congrArg Prod.fst hshape) (by decide +kernel)

/-! ## Confidence -/

/-- A group with one observation more. -/
def extended (g : Group String Observation) (o : Observation) : Group String Observation :=
  ⟨g.key, g.head, g.tail ++ [o]⟩

/-- A firm observation is confirmed by another one, or two engines report. -/
def Upheld (g : Group String Observation) : Prop :=
  (∃ o ∈ g.members, o.confidence = .firm) → (∃ o ∈ g.members, o.confidence = .confirmed) ∨
    ∃ o ∈ g.members, ∃ o' ∈ g.members, o.engineId ≠ o'.engineId

variable {g : Group String Observation} {id : String}

theorem mem_extended {p : Observation} : p ∈ (extended g o).members ↔ p ∈ g.members ∨ p = o := by
  simp [extended, Group.members, or_assoc]

theorem neg_one_le_rank (c : Confidence) : -1 ≤ c.rank := by cases c <;> decide

theorem zero_le_rank {c : Confidence} (h : c ≠ .falsePositive) : 0 ≤ c.rank := by
  cases c with
  | falsePositive => exact absurd rfl h
  | _ => decide

/-- Several engines make a finding firm at least, unless it is refuted. -/
theorem one_le_rank_of_engines (hlive : ∃ o ∈ g.members, o.confidence ≠ .falsePositive)
    (hengines : ∃ o ∈ g.members, ∃ o' ∈ g.members, o.engineId ≠ o'.engineId) :
    1 ≤ (confidenceOf g).rank := by
  have hall : ¬ (g.members.all (·.confidence = .falsePositive)) = true := by simpa using hlive
  unfold confidenceOf confidenceFromEngines
  rw [if_neg hall, if_pos (two_le_enginesOf_iff.mpr hengines)]
  split_ifs <;> decide

theorem rank_le_extended (ho : o.confidence ≠ .falsePositive) :
    (confidenceOf g).rank ≤ (confidenceOf (extended g o)).rank := by
  have hlive : ∃ p ∈ (extended g o).members, p.confidence ≠ .falsePositive :=
    ⟨o, mem_extended.mpr (Or.inr rfl), ho⟩
  cases hconf : confidenceOf g with
  | falsePositive => exact neg_one_le_rank _
  | tentative => exact zero_le_rank (confidenceOf_ne_falsePositive_iff.mpr hlive)
  | firm =>
      obtain ⟨p, hp, p', hp', hne⟩ := two_le_enginesOf_iff.mp (two_le_engines_of_firm hconf)
      exact one_le_rank_of_engines hlive
        ⟨p, mem_extended.mpr (Or.inl hp), p', mem_extended.mpr (Or.inl hp'), hne⟩
  | confirmed =>
      obtain ⟨p, hp, hconfirmed⟩ := confidenceOf_eq_confirmed_iff.mp hconf
      have hext : confidenceOf (extended g o) = .confirmed :=
        confidenceOf_eq_confirmed_iff.mpr ⟨p, mem_extended.mpr (Or.inl hp), hconfirmed⟩
      rw [hext]

theorem rank_le_of_upheld (h : Upheld g) (ho : o ∈ g.members) :
    o.confidence.rank ≤ (confidenceOf g).rank := by
  cases hconf : o.confidence with
  | falsePositive => exact neg_one_le_rank _
  | tentative =>
      exact zero_le_rank (confidenceOf_ne_falsePositive_iff.mpr ⟨o, ho, by simp [hconf]⟩)
  | firm =>
      rcases h ⟨o, ho, hconf⟩ with hconfirmed | hengines
      · rw [confidenceOf_eq_confirmed_iff.mpr hconfirmed]
        decide
      · exact one_le_rank_of_engines ⟨o, ho, by simp [hconf]⟩ hengines
  | confirmed => rw [confidenceOf_eq_confirmed_iff.mpr ⟨o, ho, hconf⟩]

theorem upheld_of_rank_le (h : ∀ o ∈ g.members, o.confidence.rank ≤ (confidenceOf g).rank) :
    Upheld g := by
  rintro ⟨o, ho, hfirm⟩
  have hrank := h o ho
  rw [hfirm] at hrank
  cases hconf : confidenceOf g with
  | falsePositive => exact absurd (hconf ▸ hrank) (by decide)
  | tentative => exact absurd (hconf ▸ hrank) (by decide)
  | firm => exact Or.inr (two_le_enginesOf_iff.mp (two_le_engines_of_firm hconf))
  | confirmed => exact Or.inl (confidenceOf_eq_confirmed_iff.mp hconf)

/-- Merging keeps the confidence of every observation exactly when no firm one
stands on one engine alone; a further observation never lowers it. -/
theorem confidence_kept_iff_upheld (sha256 : List UInt8 → String) (e : CorrelationEngine)
    (id : String) (g : Group String Observation) :
    ((∀ o ∈ g.members, o.confidence.rank ≤ (e.merge sha256 id g).confidence.rank) ∧
      ∀ o, o.confidence ≠ .falsePositive → (e.merge sha256 id g).confidence.rank ≤
        (e.merge sha256 id (extended g o)).confidence.rank) ↔ Upheld g :=
  ⟨fun h ↦ upheld_of_rank_le h.1, fun h ↦ ⟨fun _ ↦ rank_le_of_upheld h, fun _ ↦ rank_le_extended⟩⟩

/-- What the differential check has raised to firm is tentative in the report. -/
theorem lowered_firmReport : ¬ ((∀ o ∈ (⟨"key", demoReport "a" "xss" .firm, []⟩ :
      Group String Observation).members, o.confidence.rank ≤
        (demoEngine.merge demoSha256 "f" ⟨"key", demoReport "a" "xss" .firm, []⟩).confidence.rank) ∧
    ∀ o, o.confidence ≠ .falsePositive →
      (demoEngine.merge demoSha256 "f" ⟨"key", demoReport "a" "xss" .firm, []⟩).confidence.rank ≤
        (demoEngine.merge demoSha256 "f"
          (extended ⟨"key", demoReport "a" "xss" .firm, []⟩ o)).confidence.rank) := by
  rintro ⟨hall, -⟩
  exact absurd (hall _ List.mem_cons_self) (by decide +kernel)

end Vantage.Findings
