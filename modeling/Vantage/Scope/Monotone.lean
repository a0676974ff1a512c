import Vantage.Scope.Engine

/-!
# How rules compose

What a permutation of the rules, an inserted exclude rule and an inserted
include rule do to the verdict. The opt-in flag is computed over all rules,
whatever their kind, so an exclude rule can open the private-address gate.
-/

namespace Vantage.Scope

open Text IpAddress

variable {re : RegexEngine String} {authorized : Bool} {rules : List ScopeRule} {url : String}
  {method : Option String} {u : ParsedUrl}

/-- The composition law at one rule list and one request. -/
structure ComposesMonotonically (re : RegexEngine String) (authorized : Bool)
    (rules : List ScopeRule) (url : String) (method : Option String) : Prop where
  perm : ∀ rules' : List ScopeRule, rules'.Perm rules →
    (ScopeEngine.fromRules rules' authorized).verdict re url method =
      (ScopeEngine.fromRules rules authorized).verdict re url method
  insert_exclude : ∀ (before after : List ScopeRule) (rule : ScopeRule),
    rules = before ++ after → rule.kind = .exclude →
      (ScopeEngine.fromRules rules authorized).verdict re url method = .ok false →
        (ScopeEngine.fromRules (before ++ rule :: after) authorized).verdict re url method ≠ .ok true
  insert_include : ∀ (before after : List ScopeRule) (rule : ScopeRule),
    rules = before ++ after → rule.kind = .include_ →
      (ScopeEngine.fromRules rules authorized).verdict re url method = .ok true →
        (ScopeEngine.fromRules (before ++ rule :: after) authorized).verdict re url method ≠ .ok false

/-- Among the rules of the kind that decides, a pattern that does not compile
is not reached next to a rule that matches. -/
def OrderIndependent (re : RegexEngine String) (rules : List ScopeRule) (u : ParsedUrl) : Prop :=
  FirstHit.Uniform (kindMatches re .exclude u) rules ∧
    ((∀ rule ∈ rules, kindMatches re .exclude u rule = .ok false) →
      FirstHit.Uniform (kindMatches re .include_ u) rules)

/-! ## The two scans under insertion and permutation -/

theorem kindMatches_of_kind_ne {kind : ScopeRuleKind} {rule : ScopeRule} (h : rule.kind ≠ kind) :
    kindMatches re kind u rule = .ok false := by
  simp [kindMatches, h]

/-- An inserted exclude rule lets nothing through that the other rules refuse. -/
theorem RulesCover.of_insert_exclude {before after : List ScopeRule} {rule : ScopeRule}
    (hkind : rule.kind = .exclude) (h : RulesCover re (before ++ rule :: after) u) :
    RulesCover re (before ++ after) u := by
  have hinc : kindMatches re .include_ u rule = .ok false :=
    kindMatches_of_kind_ne (by simp [hkind])
  refine ⟨fun r hr ↦ h.1 r ?_, ?_⟩
  · rcases List.mem_append.mp hr with hr | hr <;> simp [hr]
  · rw [← FirstHit.scan_insert_of_eq_false hinc before after]
    exact h.2

theorem resolve_insert_include_ne_false {before after : List ScopeRule} {rule : ScopeRule}
    (hkind : rule.kind = .include_) (h : RulesCover re (before ++ after) u) :
    resolve re (before ++ rule :: after) u ≠ .ok false := by
  have hexc : kindMatches re .exclude u rule = .ok false :=
    kindMatches_of_kind_ne (by simp [hkind])
  have hscan : FirstHit.scan (kindMatches re .exclude u) (before ++ rule :: after) = .ok false := by
    rw [FirstHit.scan_insert_of_eq_false hexc, FirstHit.scan_eq_false_iff]
    exact h.1
  simp only [resolve, hscan]
  intro hfalse
  have hrest := (FirstHit.scan_insert_eq_false_iff.mp hfalse).2
  rw [h.2] at hrest
  simp at hrest

theorem OrderIndependent.resolve_perm (h : OrderIndependent re rules u) {rules' : List ScopeRule}
    (hperm : rules'.Perm rules) : resolve re rules' u = resolve re rules u := by
  have hexc := FirstHit.scan_perm_of_uniform h.1 hperm
  unfold resolve
  rw [hexc]
  by_cases hnone : FirstHit.scan (kindMatches re .exclude u) rules = .ok false
  · simp only [hnone]
    exact FirstHit.scan_perm_of_uniform (h.2 (FirstHit.scan_eq_false_iff.mp hnone)) hperm
  · cases hscan : FirstHit.scan (kindMatches re .exclude u) rules with
    | error e => rfl
    | ok b => cases b with
      | true => rfl
      | false => exact (hnone hscan).elim

/-- The exclude scan can be read off the resolution when some exclude test is not `false`. -/
theorem resolve_of_exclude_ne_false
    (h : FirstHit.scan (kindMatches re .exclude u) rules ≠ .ok false) :
    resolve re rules u = (FirstHit.scan (kindMatches re .exclude u) rules).map (!·) := by
  unfold resolve
  cases hscan : FirstHit.scan (kindMatches re .exclude u) rules with
  | error e => rfl
  | ok b => cases b with
    | true => rfl
    | false => exact (h hscan).elim

theorem orderIndependent_of_resolve_perm
    (h : ∀ rules' : List ScopeRule, rules'.Perm rules → resolve re rules' u = resolve re rules u) :
    OrderIndependent re rules u := by
  have hmap : ∀ x y : Except PyError Bool, x.map (!·) = y.map (!·) → x = y := by
    rintro (e | a) (e' | b) hxy <;> simp_all [Except.map]
  constructor
  · intro a ha b hb hane hbne
    obtain ⟨la, hla, hsa⟩ := FirstHit.exists_perm_scan_eq ha hane
    obtain ⟨lb, hlb, hsb⟩ := FirstHit.exists_perm_scan_eq hb hbne
    rw [← hsa, ← hsb]
    apply hmap
    rw [← resolve_of_exclude_ne_false (hsa ▸ hane), ← resolve_of_exclude_ne_false (hsb ▸ hbne),
      h la hla, h lb hlb]
  · intro hnone
    apply FirstHit.uniform_of_scan_perm
    intro rules' hperm
    have hscan : ∀ l : List ScopeRule, l.Perm rules →
        resolve re l u = FirstHit.scan (kindMatches re .include_ u) l := by
      intro l hl
      have hfalse : FirstHit.scan (kindMatches re .exclude u) l = .ok false :=
        FirstHit.scan_eq_false_iff.mpr fun r hr ↦ hnone r (hl.mem_iff.mp hr)
      simp only [resolve, hfalse]
    rw [← hscan rules' hperm, h rules' hperm, hscan rules (List.Perm.refl _)]

/-! ## The private-address gate -/

theorem gateOpen_perm (authorized : Bool) (u : ParsedUrl) {rules' : List ScopeRule}
    (h : rules'.Perm rules) :
    gateOpen (.fromRules rules' authorized) u = gateOpen (.fromRules rules authorized) u := by
  simp only [gateOpen, ScopeEngine.fromRules, h.any_eq]

theorem gateOpen_insert {before after : List ScopeRule} (rule : ScopeRule)
    (h : gateOpen (.fromRules (before ++ after) authorized) u = true) :
    gateOpen (.fromRules (before ++ rule :: after) authorized) u = true := by
  simp only [gateOpen, ScopeEngine.fromRules, List.any_append, List.any_cons, Bool.or_eq_true] at h ⊢
  tauto

/-- A rule that matches a private literal without opting in has a wildcard host. -/
theorem wildcard_of_hostMatches {rule : ScopeRule} {host : String}
    (hmatch : hostMatches rule.host host = true) (hpriv : isPrivateLiteral host = true)
    (hoptin : ruleAllowsPrivate rule = false) : startsWith rule.host "*." = true := by
  simp only [ruleAllowsPrivate, Bool.or_eq_false_iff] at hoptin
  obtain ⟨hlit, hslash⟩ := hoptin
  by_contra hstar
  have hne : rule.host ≠ host := by
    rintro rfl
    simp [hlit] at hpriv
  simp only [hostMatches, if_neg hne, if_neg hstar, hslash, Bool.false_eq_true, if_false] at hmatch
  cases haddr : ipAddress host with
  | none => simp [haddr] at hmatch
  | some addr =>
      cases hrule : ipAddress rule.host with
      | none => simp [haddr, hrule] at hmatch
      | some ruleAddr =>
          simp only [haddr, hrule, beq_iff_eq] at hmatch
          subst hmatch
          -- both literals denote one address, which is private or not
          simp only [isPrivateLiteral, haddr, hrule] at hpriv hlit
          rw [hpriv] at hlit
          simp at hlit

/-- An exclude rule for no scheme at all, whose host is a block. -/
def deadOptIn : ScopeRule where
  kind := .exclude
  host := "10.0.0.0/8"
  schemes := []
  ports := none
  pathPrefix := "/"
  pathRegex := none
  methods := none
  host_ok := ⟨"10.0.0.0/8", by decide⟩
  schemes_ok := by simp
  pathPrefix_ok := by decide
  methods_ok := upper_of_no_methods

theorem kindMatches_deadOptIn (kind : ScopeRuleKind) :
    kindMatches re kind u deadOptIn = .ok false := by
  simp [kindMatches, ruleMatches, originMatches, deadOptIn]

theorem resolve_deadOptIn_cons : resolve re (deadOptIn :: rules) u = resolve re rules u := by
  simp only [resolve, FirstHit.scan_cons_of_eq_false (kindMatches_deadOptIn _)]

theorem gateOpen_deadOptIn_cons :
    gateOpen (.fromRules (deadOptIn :: rules) authorized) u = true := by
  have hallow : ruleAllowsPrivate deadOptIn = true := by decide
  simp [gateOpen, ScopeEngine.fromRules, hallow]

/-! ## When the law holds -/

theorem ComposesMonotonically.of_refused
    (h : ∀ rules' : List ScopeRule,
      (ScopeEngine.fromRules rules' authorized).verdict re url method = .ok false) :
    ComposesMonotonically re authorized rules url method where
  perm rules' _ := by rw [h, h]
  insert_exclude before after rule _ _ _ := by simp [h]
  insert_include before after rule _ _ := by simp [h]

theorem composesMonotonically_of_gateOpen (hparse : parse url method = some u)
    (hgate : gateOpen (.fromRules rules true) u = true) (hindep : OrderIndependent re rules u) :
    ComposesMonotonically re true rules url method := by
  have hverdict := verdict_eq_resolve re (by rfl) hparse hgate
  refine ⟨?_, ?_, ?_⟩
  · intro rules' hperm
    have hgate' := (gateOpen_perm true u hperm).trans hgate
    rw [hverdict, verdict_eq_resolve re rfl hparse hgate']
    exact hindep.resolve_perm hperm
  · rintro before after rule rfl hkind hrefused hallowed
    rw [verdict_eq_resolve re rfl hparse (gateOpen_insert rule hgate)] at hallowed
    have hcover := (resolve_eq_true_iff.mp hallowed).of_insert_exclude hkind
    rw [hverdict, ScopeEngine.fromRules, resolve_eq_true_iff.mpr hcover] at hrefused
    simp at hrefused
  · rintro before after rule rfl hkind hallowed
    rw [verdict_eq_resolve re rfl hparse (gateOpen_insert rule hgate)]
    rw [hverdict] at hallowed
    exact resolve_insert_include_ne_false hkind (resolve_eq_true_iff.mp hallowed)

theorem composesMonotonically_of_gate_closed (hparse : parse url method = some u)
    (hgate : gateOpen (.fromRules rules true) u = false) (hcover : ¬ RulesCover re rules u) :
    ComposesMonotonically re true rules url method := by
  have hverdict := verdict_of_gate_closed re hparse hgate
  refine ⟨?_, ?_, ?_⟩
  · intro rules' hperm
    have hgate' := (gateOpen_perm true u hperm).trans hgate
    rw [hverdict, verdict_of_gate_closed re hparse hgate']
  · rintro before after rule rfl hkind - hallowed
    cases hgate' : gateOpen (.fromRules (before ++ rule :: after) true) u with
    | false =>
        rw [verdict_of_gate_closed re hparse hgate'] at hallowed
        simp at hallowed
    | true =>
        rw [verdict_eq_resolve re rfl hparse hgate'] at hallowed
        exact hcover ((resolve_eq_true_iff.mp hallowed).of_insert_exclude hkind)
  · rintro before after rule - - hallowed
    rw [hverdict] at hallowed
    simp at hallowed

theorem composesMonotonically_of
    (h : ∀ u, authorized = true → parse url method = some u →
      (gateOpen (.fromRules rules authorized) u = true → OrderIndependent re rules u) ∧
        (gateOpen (.fromRules rules authorized) u = false → ¬ RulesCover re rules u)) :
    ComposesMonotonically re authorized rules url method := by
  cases authorized with
  | false => exact .of_refused fun rules' ↦ verdict_of_not_authorized rfl url method
  | true =>
      cases hparse : parse url method with
      | none => exact .of_refused fun rules' ↦ verdict_of_parse_eq_none hparse
      | some u =>
          obtain ⟨hopen, hclosed⟩ := h u rfl hparse
          cases hgate : gateOpen (.fromRules rules true) u with
          | true => exact composesMonotonically_of_gateOpen hparse hgate (hopen hgate)
          | false => exact composesMonotonically_of_gate_closed hparse hgate (hclosed hgate)

/-- The law holds at a request exactly when the rules that are reached agree
in every order and, behind a closed gate, would not let the request through. -/
theorem composesMonotonically_iff (re : RegexEngine String) (authorized : Bool)
    (rules : List ScopeRule) (url : String) (method : Option String) :
    ComposesMonotonically re authorized rules url method ↔
      ∀ u, authorized = true → parse url method = some u →
        (gateOpen (.fromRules rules authorized) u = true → OrderIndependent re rules u) ∧
          (gateOpen (.fromRules rules authorized) u = false → ¬ RulesCover re rules u) := by
  refine ⟨?_, composesMonotonically_of⟩
  rintro hlaw u rfl hparse
  refine ⟨fun hgate ↦ ?_, fun hgate hcover ↦ ?_⟩
  · apply orderIndependent_of_resolve_perm
    intro rules' hperm
    have hgate' := (gateOpen_perm true u hperm).trans hgate
    have hverdict := hlaw.perm rules' hperm
    rwa [verdict_eq_resolve re rfl hparse hgate', verdict_eq_resolve re rfl hparse hgate] at hverdict
  · have hrefused := verdict_of_gate_closed re hparse hgate
    apply hlaw.insert_exclude [] rules deadOptIn rfl rfl hrefused
    rw [List.nil_append, verdict_eq_resolve re rfl hparse gateOpen_deadOptIn_cons]
    exact resolve_deadOptIn_cons.trans (resolve_eq_true_iff.mpr hcover)

/-- An include rule whose wildcard suffix is also the end of a loopback literal. -/
def loopbackWildcard : ScopeRule := .ofHost "*.0.0.1" ⟨"*.0.0.1", by decide⟩

/-- The exclude rule refuses nothing here and opens the gate. -/
theorem not_composesMonotonically_loopbackWildcard :
    ¬ ComposesMonotonically (fun _ ↦ none) true [loopbackWildcard] "https://127.0.0.1/" none := by
  intro hlaw
  refine hlaw.insert_exclude [] [loopbackWildcard] deadOptIn rfl rfl ?_ ?_
  · decide
  · decide

/-- Without wildcard hosts, and without patterns that do not compile, rules compose monotonically. -/
theorem composesMonotonically_of_no_wildcard
    (hstar : ∀ rule ∈ rules, startsWith rule.host "*." = false)
    (hregex : ∀ rule ∈ rules, ∀ p ∈ rule.pathRegex, (re p).isSome = true) :
    ComposesMonotonically re authorized rules url method := by
  have hok : ∀ rule ∈ rules, ∀ u kind, ∃ b, kindMatches re kind u rule = .ok b := by
    intro rule hrule u kind
    by_cases hkind : rule.kind = kind
    · unfold kindMatches ruleMatches
      rw [if_pos hkind]
      cases hp : rule.pathRegex with
      | none => split_ifs <;> simp [regexMatches]
      | some p =>
          obtain ⟨search, hsearch⟩ := Option.isSome_iff_exists.mp (hregex rule hrule p hp)
          simp only [regexMatches, hsearch]
          split_ifs <;> cases search u.path <;> simp
    · exact ⟨false, kindMatches_of_kind_ne hkind⟩
  have huniform : ∀ u kind, FirstHit.Uniform (kindMatches re kind u) rules := by
    intro u kind a ha b hb hane hbne
    obtain ⟨x, hx⟩ := hok a ha u kind
    obtain ⟨y, hy⟩ := hok b hb u kind
    rw [hx] at hane ⊢
    rw [hy] at hbne ⊢
    cases x <;> cases y <;> simp_all
  apply composesMonotonically_of
  rintro u rfl hparse
  refine ⟨fun _ ↦ ⟨huniform u _, fun _ ↦ huniform u _⟩, fun hgate hcover ↦ ?_⟩
  -- the include rule that is hit opts in, so the gate is open
  simp only [gateOpen, ScopeEngine.fromRules, Bool.or_eq_false_iff, Bool.not_eq_false'] at hgate
  obtain ⟨hpriv, hoptin⟩ := hgate
  have hhit : FirstHit.scan (kindMatches re .include_ u) rules ≠ .ok false := by simp [hcover.2]
  obtain ⟨rule, hrule, hne, -⟩ := FirstHit.exists_of_scan_ne_false hhit
  have horigin : originMatches rule u = true := by
    by_contra horigin
    simp [kindMatches, ruleMatches, horigin] at hne
  have hhost : hostMatches rule.host u.host = true := by
    simp only [originMatches, Bool.and_eq_true] at horigin
    exact horigin.1.2
  have hwild := wildcard_of_hostMatches hhost hpriv (by simpa using List.any_eq_false.mp hoptin rule hrule)
  rw [hstar rule hrule] at hwild
  simp at hwild

end Vantage.Scope
