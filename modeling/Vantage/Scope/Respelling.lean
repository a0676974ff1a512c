import Vantage.Lib.UrlPath
import Vantage.Scope.Monotone

/-!
# Respelled paths

Rules are tested on the path as it is written. The server sees the path
with its dot segments removed and unreserved characters decoded. This file
says when a permission for the first carries over to the second.
-/

namespace Vantage.Scope

open Text Url

variable {re : RegexEngine String} {authorized : Bool} {rules : List ScopeRule}
  {method : Option String} {v : ParsedUrl}

/-- What is allowed as written stays allowed in normal form. -/
def StableUnderRespelling (re : RegexEngine String) (authorized : Bool) (rules : List ScopeRule)
    (method : Option String) (url : Absolute) : Prop :=
  (ScopeEngine.fromRules rules authorized).Allows re url.text method →
    (ScopeEngine.fromRules rules authorized).Allows re url.normalize.text method

def RegexFree (rules : List ScopeRule) : Prop := ∀ rule ∈ rules, rule.pathRegex = none

/-- A rule of the kind whose origin, path prefix and methods fit the request. -/
def Covered (kind : ScopeRuleKind) (rules : List ScopeRule) (v : ParsedUrl) : Prop :=
  ∃ rule ∈ rules, rule.kind = kind ∧ originMatches rule v = true ∧
    startsWith v.path rule.pathPrefix = true ∧ methodMatches rule.methods v.method = true

/-- The request as the server sees it. -/
def served (url : Absolute) (v : ParsedUrl) : ParsedUrl :=
  { v with path := effectivePath url.normalize.path }

/-! ## Regex-free rules -/

theorem kindMatches_of_pathRegex_eq_none (re : RegexEngine String) (v : ParsedUrl)
    {rule : ScopeRule} (h : rule.pathRegex = none) (kind : ScopeRuleKind) : kindMatches re kind v rule =
      .ok (decide (rule.kind = kind) && originMatches rule v &&
        startsWith v.path rule.pathPrefix && methodMatches rule.methods v.method) := by
  unfold kindMatches ruleMatches
  by_cases hkind : rule.kind = kind
  · cases originMatches rule v <;> cases hpath : startsWith v.path rule.pathPrefix <;>
      simp [hkind, h, regexMatches]
  · simp [hkind]

theorem scan_kindMatches_eq_true_iff (h : RegexFree rules) (kind : ScopeRuleKind) :
    FirstHit.scan (kindMatches re kind v) rules = .ok true ↔ Covered kind rules v := by
  induction rules with
  | nil => simp [Covered]
  | cons rule rules ih =>
      have hrule := kindMatches_of_pathRegex_eq_none re v (h rule (by simp)) kind
      have hrest := ih fun r hr ↦ h r (List.mem_cons_of_mem _ hr)
      have hcons : Covered kind (rule :: rules) v ↔
          kindMatches re kind v rule = .ok true ∨ Covered kind rules v := by
        simp [Covered, hrule, and_assoc]
      rw [hcons, ← hrest]
      by_cases hfalse : kindMatches re kind v rule = .ok false
      · rw [FirstHit.scan_cons_of_eq_false hfalse, hfalse]
        simp
      · rw [FirstHit.scan_cons_of_ne_false hfalse]
        rw [hrule] at hfalse ⊢
        simp only [Except.ok.injEq, Bool.not_eq_false] at hfalse
        simp [hfalse]

theorem rulesCover_iff_of_regexFree (h : RegexFree rules) :
    RulesCover re rules v ↔ ¬ Covered .exclude rules v ∧ Covered .include_ rules v := by
  rw [RulesCover, scan_kindMatches_eq_true_iff h]
  refine and_congr_left fun _ ↦ ⟨?_, ?_⟩
  · rintro hnone ⟨rule, hrule, hkind, horigin, hpath, hmethod⟩
    have hfalse := hnone rule hrule
    rw [kindMatches_of_pathRegex_eq_none re v (h rule hrule)] at hfalse
    simp [hkind, horigin, hpath, hmethod] at hfalse
  · intro hnone rule hrule
    rw [kindMatches_of_pathRegex_eq_none re v (h rule hrule)]
    by_contra hne
    apply hnone
    refine ⟨rule, hrule, ?_⟩
    simpa [and_assoc] using hne

/-! ## Parsing the two spellings -/

theorem rooted_effectivePath {path : String} (h : Rooted path.toList) :
    startsWith (effectivePath path) "/" = true := by
  unfold effectivePath
  split_ifs with hempty
  · decide
  · rcases h with h | h
    · exact (hempty (by simpa using h)).elim
    · obtain ⟨t, ht⟩ := List.head?_eq_some_iff.mp h
      simp [ht]

theorem parse_normalize (url : Absolute) (method : Option String) :
    parse url.normalize.text method = (parse url.text method).map (served url) := by
  rw [parse_text, parse_text, apply_ite (Option.map (served url)), Option.map_map]
  rfl

theorem path_of_parse_text {url : Absolute} (h : parse url.text method = some v) :
    v.path = effectivePath url.path := by
  rw [parse_text] at h
  split_ifs at h
  obtain ⟨e, -, rfl⟩ := Option.map_eq_some_iff.mp h
  rfl

theorem scheme_of_parse_text {url : Absolute} (h : parse url.text method = some v) :
    v.scheme = lower url.scheme := by
  rw [parse_text] at h
  split_ifs at h
  obtain ⟨e, -, rfl⟩ := Option.map_eq_some_iff.mp h
  rfl

theorem parse_method {url : Absolute} (h : parse url.text method = some v)
    (method' : Option String) :
    parse url.text method' = some { v with method := upperMethod method' } := by
  rw [parse_text] at h ⊢
  split_ifs at h with hok
  obtain ⟨e, he, rfl⟩ := Option.map_eq_some_iff.mp h
  simp [hok, he]

/-- Normalising never makes the tested path longer. -/
theorem length_served_path_le {url : Absolute} (h : parse url.text method = some v) :
    (served url v).path.toList.length ≤ v.path.toList.length := by
  have hlen : url.normalize.path.toList.length ≤ url.path.toList.length := by
    simpa [Absolute.normalize] using length_normalPath_le url.path.toList
  rw [path_of_parse_text h]
  by_cases hempty : url.path = ""
  · have hnorm : url.normalize.path = "" := by
      rw [hempty] at hlen
      simpa using hlen
    simp [served, effectivePath, hempty, hnorm]
  · have hpos : 0 < url.path.toList.length :=
      List.length_pos_of_ne_nil fun h ↦ hempty (by simpa using h)
    simp only [served, effectivePath, if_neg hempty]
    split_ifs
    · exact hpos
    · exact hlen

/-! ## When a permission carries over -/

/-- For a rule list: a path that is covered as written, and not excluded, is
covered and not excluded as served. -/
def CoversServed (authorized : Bool) (rules : List ScopeRule) (method : Option String)
    (url : Absolute) : Prop :=
  ∀ v, authorized = true → parse url.text method = some v →
    gateOpen (.fromRules rules authorized) v = true →
      Covered .include_ rules v → ¬ Covered .exclude rules v →
        Covered .include_ rules (served url v) ∧ ¬ Covered .exclude rules (served url v)

theorem stableUnderRespelling_iff_coversServed (h : RegexFree rules) (url : Absolute) :
    StableUnderRespelling re authorized rules method url ↔
      CoversServed authorized rules method url := by
  unfold StableUnderRespelling CoversServed
  simp only [allows_iff, parse_normalize, rulesCover_iff_of_regexFree h, ScopeEngine.fromRules]
  constructor
  · rintro hstable v hauth hparse hgate hinc hexc
    obtain ⟨-, v', hv', -, hcover⟩ := hstable ⟨hauth, v, hparse, hgate, hexc, hinc⟩
    simp only [hparse, Option.map_some, Option.some.injEq] at hv'
    subst hv'
    exact hcover.symm
  · rintro hcovers ⟨hauth, v, hparse, hgate, hexc, hinc⟩
    refine ⟨hauth, served url v, by simp [hparse], hgate, ?_⟩
    exact (hcovers v hauth hparse hgate hinc hexc).symm

/-- An include rule for exactly the written path at the origin of the request. -/
def exactRule (rule : ScopeRule) (v : ParsedUrl) (hscheme : v.scheme ∈ supportedSchemes)
    (hpath : startsWith v.path "/" = true) : ScopeRule where
  kind := .include_
  host := rule.host
  schemes := [v.scheme]
  ports := some [(v.port : ℤ)]
  pathPrefix := v.path
  pathRegex := none
  methods := none
  host_ok := rule.host_ok
  schemes_ok := by simpa using hscheme
  pathPrefix_ok := hpath
  methods_ok := upper_of_no_methods

/-- The rule list of `exactRule` allows the URL as written, and in normal form
only when the path is already normal. -/
theorem served_path_eq_of_stable (re : RegexEngine String) {url : Absolute} (hparse : parse url.text none = some v)
    (hscheme : v.scheme ∈ supportedSchemes) {rule : ScopeRule}
    (hhost : hostMatches rule.host v.host = true)
    (hstable : ∀ rules, RegexFree rules → StableUnderRespelling re true rules none url) :
    (served url v).path = v.path := by
  have hpath : startsWith v.path "/" = true := by
    rw [path_of_parse_text hparse]
    exact rooted_effectivePath url.rooted_path
  set exact := exactRule rule v hscheme hpath with hexact
  have hfree : RegexFree [deadOptIn, exact] := by
    simp [RegexFree, deadOptIn, exact, exactRule]
  have horigin : originMatches exact v = true := by
    simp [originMatches, exact, exactRule, hhost, portMatches]
  have hcovers := (stableUnderRespelling_iff_coversServed hfree url).mp (hstable _ hfree)
  have hinc : Covered .include_ [deadOptIn, exact] v :=
    ⟨exact, by simp, rfl, horigin, startsWith_self _, rfl⟩
  have hexc : ¬ Covered .exclude [deadOptIn, exact] v := by
    rintro ⟨r, hr, hkind, hor, -, -⟩
    rcases List.mem_cons.mp hr with rfl | hr
    · simp [originMatches, deadOptIn] at hor
    · obtain rfl := List.mem_singleton.mp hr
      simp [exact, exactRule] at hkind
  obtain ⟨⟨r, hr, hkind, hor, hpre, -⟩, -⟩ := hcovers v rfl hparse gateOpen_deadOptIn_cons hinc hexc
  rcases List.mem_cons.mp hr with rfl | hr
  · simp [deadOptIn] at hkind
  · obtain rfl := List.mem_singleton.mp hr
    exact eq_of_startsWith_of_length_le hpre (length_served_path_le hparse)

theorem coversServed_of_path_eq {url : Absolute}
    (h : ∀ v, parse url.text method = some v → (served url v).path = v.path) :
    CoversServed authorized rules method url := by
  intro v _ hparse _ hinc hexc
  have hserved : served url v = v := by
    have hpath := h v hparse
    cases v
    simp_all [served]
  rw [hserved]
  exact ⟨hinc, hexc⟩

theorem coversServed_of_no_host {url : Absolute}
    (h : ∀ v, parse url.text method = some v →
      ∀ rule : ScopeRule, hostMatches rule.host v.host = false) :
    CoversServed authorized rules method url := by
  rintro v - hparse - ⟨rule, -, -, horigin, -⟩
  simp [originMatches, h v hparse rule] at horigin

/-- For a rule list the law is a matter of its prefixes on the two spellings.
For all rule lists at once it holds exactly when the written path is normal
already, or no rule can name the host. -/
theorem stableUnderRespelling_iff (re : RegexEngine String) (url : Absolute)
    (hscheme : lower url.scheme = "http" ∨ lower url.scheme = "https") :
    (∀ authorized rules method, RegexFree rules →
      (StableUnderRespelling re authorized rules method url ↔
        CoversServed authorized rules method url)) ∧
    ((∀ authorized rules method, RegexFree rules →
      StableUnderRespelling re authorized rules method url) ↔
        ∀ v, parse url.text none = some v → (served url v).path = v.path ∨
          ∀ rule : ScopeRule, hostMatches rule.host v.host = false) := by
  refine ⟨fun _ _ _ hfree ↦ stableUnderRespelling_iff_coversServed hfree url, ?_, ?_⟩
  · intro hstable v hparse
    by_cases hhost : ∃ rule : ScopeRule, hostMatches rule.host v.host = true
    · obtain ⟨rule, hrule⟩ := hhost
      left
      apply served_path_eq_of_stable re hparse _ hrule
      · exact fun rules hfree ↦ hstable true rules none hfree
      · rw [scheme_of_parse_text hparse]
        rcases hscheme with h | h <;> simp [h, supportedSchemes]
    · right
      intro rule
      by_contra hrule
      exact hhost ⟨rule, by simpa using hrule⟩
  · intro h authorized rules method hfree
    rw [stableUnderRespelling_iff_coversServed hfree]
    cases hparse : parse url.text method with
    | none => exact fun v _ hv ↦ by simp [hparse] at hv
    | some v =>
        have hnone := parse_method hparse none
        rcases h _ hnone with hpath | hhost
        · exact coversServed_of_path_eq fun w hw ↦ by
            obtain rfl := Option.some.inj (hparse.symm.trans hw)
            exact hpath
        · exact coversServed_of_no_host fun w hw ↦ by
            obtain rfl := Option.some.inj (hparse.symm.trans hw)
            exact hhost

def dottedAdmin : Absolute where
  scheme := "http"
  netloc := "app.example"
  path := "/x/../admin"
  tail := ""
  scheme_ok := by decide
  netloc_ok := by decide
  path_start := by decide
  path_ok := by decide
  tail_start := Url.tail_start_of_empty
  tail_ok := Url.not_isUnsafe_of_empty

theorem stableUnderRespelling_iff_dottedAdmin :
    (StableUnderRespelling (fun _ ↦ none) true allButAdmin none dottedAdmin ↔
      CoversServed true allButAdmin none dottedAdmin) :=
  (stableUnderRespelling_iff (fun _ ↦ none) dottedAdmin (by decide)).1 true allButAdmin none
    (by simp [RegexFree, allButAdmin, demoHost, ScopeRule.ofHost])

theorem not_stableUnderRespelling_dottedAdmin :
    ¬ StableUnderRespelling (fun _ ↦ none) true allButAdmin none dottedAdmin := by
  intro hstable
  have hallowed : (ScopeEngine.fromRules allButAdmin true).Allows (fun _ ↦ none)
      dottedAdmin.text none := by decide
  have hrefused : ¬ (ScopeEngine.fromRules allButAdmin true).Allows (fun _ ↦ none)
      dottedAdmin.normalize.text none := by decide
  exact hrefused (hstable hallowed)

end Vantage.Scope
