import Vantage.Scope.Monotone

/-!
# Private addresses by name

The opt-in into private addresses is one flag over all rules, while the
hosts are matched rule by rule. Of the forms of a host only the wildcard
matches an address that it does not name.
-/

namespace Vantage.Scope

open Text IpAddress

variable {re : RegexEngine String} {authorized : Bool} {rules : List ScopeRule} {url : String}
  {method : Option String} {u : ParsedUrl}

/-- The host of the rule is the address or a block that contains it. -/
def NamesAddress (rule : ScopeRule) (addr : Addr) : Prop :=
  ipAddress rule.host = some addr ∨
    '/' ∈ rule.host.toList ∧ ∃ net, ipNetwork rule.host = some net ∧ net.contains addr = true

/-- A private address that is let through is named by the rule of the decision. -/
def ReachedByName (re : RegexEngine String) (rules : List ScopeRule) (authorized : Bool)
    (url : String) (method : Option String) : Prop :=
  ∀ u addr decision, parse url method = some u → ipAddress u.host = some addr →
    isPrivateLiteral u.host = true →
      (ScopeEngine.fromRules rules authorized).check re url method = .ok decision →
        decision.allowed = true → ∃ idx rule, decision.matchedRule = some idx ∧
          rules[idx]? = some rule ∧ rule.kind = .include_ ∧ NamesAddress rule addr

/-- No exclude rule matches, and the first include rule that does has a wildcard host. -/
def WildcardFirst (re : RegexEngine String) (rules : List ScopeRule) (u : ParsedUrl) : Prop :=
  (∀ rule ∈ rules, kindMatches re .exclude u rule = .ok false) ∧
    ∃ before rule after, rules = before ++ rule :: after ∧
      (∀ r ∈ before, kindMatches re .include_ u r = .ok false) ∧
      kindMatches re .include_ u rule = .ok true ∧ startsWith rule.host "*." = true

/-! ## Which rules name an address -/

theorem startsNone_star : StartsNone '*' := by
  refine ⟨?_, ?_, ?_, ?_, ?_⟩ <;> decide

theorem not_namesAddress_of_wildcard {rule : ScopeRule} (h : startsWith rule.host "*." = true)
    (addr : Addr) : ¬ NamesAddress rule addr := by
  obtain ⟨rest, hrest⟩ := startsWith_iff.mp h
  have hhost : rule.host.toList = '*' :: '.' :: rest := by simpa using hrest.symm
  rintro (haddr | ⟨-, net, hnet, -⟩)
  · rw [startsNone_star.ipAddress hhost] at haddr
    cases haddr
  · rw [startsNone_star.ipNetwork hhost] at hnet
    cases hnet

theorem namesAddress_of_hostMatches {rule : ScopeRule} {host : String} {addr : Addr}
    (hstar : startsWith rule.host "*." = false) (hmatch : hostMatches rule.host host = true)
    (haddr : ipAddress host = some addr) : NamesAddress rule addr := by
  have hnotStar : ¬ startsWith rule.host "*." = true := by simp [hstar]
  by_cases heq : rule.host = host
  · exact Or.inl (heq ▸ haddr)
  simp only [hostMatches, if_neg heq, if_neg hnotStar, haddr] at hmatch
  by_cases hslash : rule.host.toList.contains '/' = true
  · rw [if_pos hslash] at hmatch
    cases hnet : ipNetwork rule.host with
    | none => simp [hnet] at hmatch
    | some net => exact Or.inr ⟨by simpa using hslash, net, hnet, by simpa [hnet] using hmatch⟩
  · rw [if_neg hslash] at hmatch
    cases hrule : ipAddress rule.host with
    | none => simp [hrule] at hmatch
    | some ruleAddr =>
        have hsame : addr = ruleAddr := by simpa [hrule] using hmatch
        exact Or.inl (hsame ▸ hrule)

theorem hostMatches_of_kindMatches {kind : ScopeRuleKind} {rule : ScopeRule}
    (h : kindMatches re kind u rule = .ok true) :
    rule.kind = kind ∧ hostMatches rule.host u.host = true := by
  unfold kindMatches at h
  split_ifs at h with hkind
  · refine ⟨hkind, ?_⟩
    by_contra hhost
    have horigin : originMatches rule u = false := by simp [originMatches, hhost]
    simp [ruleMatches, horigin] at h
  · simp at h

/-! ## The decision -/

theorem not_allowing {d decision : ScopeDecision} (h : d.allowed = false) :
    ¬ (Except.ok (ε := PyError) d = .ok decision ∧ decision.allowed = true) := by
  rintro ⟨heq, hallowed⟩
  obtain rfl := Except.ok.inj heq
  rw [h] at hallowed
  cases hallowed

/-- An allowing decision reports the first include rule that matches. -/
theorem check_allowed_iff {e : ScopeEngine} {decision : ScopeDecision} :
    e.check re url method = .ok decision ∧ decision.allowed = true ↔
      e.authorized = true ∧ ∃ u idx, parse url method = some u ∧ gateOpen e u = true ∧
        FirstHit.firstHit (kindMatches re .exclude u) 0 e.rules = .ok none ∧
        FirstHit.firstHit (kindMatches re .include_ u) 0 e.rules = .ok (some idx) ∧
        decision = ⟨true, "included by rule #" ++ toString idx, some idx⟩ := by
  unfold ScopeEngine.check
  cases e.authorized with
  | false => exact iff_of_false (not_allowing rfl) (by simp)
  | true =>
      cases hparse : parse url method with
      | none => exact iff_of_false (not_allowing rfl) (by simp)
      | some u =>
          have hgate : (isPrivateLiteral u.host && !e.privateOptin) = !gateOpen e u := by
            simp [gateOpen]
          simp only [Bool.not_true, Bool.false_eq_true, if_false, hgate, true_and]
          cases hopen : gateOpen e u with
          | false => exact iff_of_false (not_allowing rfl) (by simp [hopen])
          | true =>
              simp only [Bool.not_true, Bool.false_eq_true, if_false, Option.some.injEq,
                exists_and_left, exists_eq_left']
              cases FirstHit.firstHit (kindMatches re .exclude u) 0 e.rules with
              | error err => simp
              | ok hit =>
                  cases hit with
                  | some idx => exact iff_of_false (not_allowing rfl) (by simp)
                  | none =>
                      cases FirstHit.firstHit (kindMatches re .include_ u) 0 e.rules with
                      | error err => simp
                      | ok hit =>
                          cases hit with
                          | none => exact iff_of_false (not_allowing rfl) (by simp)
                          | some idx =>
                              constructor
                              · rintro ⟨h, -⟩
                                exact ⟨hopen, rfl, idx, rfl, (Except.ok.inj h).symm⟩
                              · rintro ⟨-, -, _, hidx, rfl⟩
                                obtain rfl := Option.some.inj (Except.ok.inj hidx)
                                exact ⟨rfl, rfl⟩

/-! ## When the law holds -/

/-- A private address is reached by name unless a rule opts in and the first
include rule that matches it is a wildcard. -/
theorem reachedByName_iff : ReachedByName re rules authorized url method ↔
    (authorized = true → rules.any ruleAllowsPrivate = true → ∀ u, parse url method = some u →
      isPrivateLiteral u.host = true → ¬ WildcardFirst re rules u) := by
  constructor
  · rintro hnamed hauth hoptin u hparse hpriv ⟨hexclude, before, rule, after, hrules, hbefore,
      hmatch, hstar⟩
    obtain ⟨addr, haddr⟩ : ∃ addr, ipAddress u.host = some addr := by
      cases haddr : ipAddress u.host with
      | none => simp [isPrivateLiteral, haddr] at hpriv
      | some addr => exact ⟨addr, rfl⟩
    have hgate : gateOpen (.fromRules rules authorized) u = true := by
      simp [gateOpen, ScopeEngine.fromRules, hoptin]
    have hhit : FirstHit.firstHit (kindMatches re .include_ u) 0 rules =
        .ok (some (0 + before.length)) :=
      FirstHit.firstHit_eq_some_iff.mpr ⟨before, rule, after, hrules, hbefore, hmatch, rfl⟩
    obtain ⟨hcheck, hallowed⟩ := check_allowed_iff.mpr ⟨hauth, u, _, hparse, hgate,
      FirstHit.firstHit_eq_none_iff.mpr hexclude, hhit, rfl⟩
    obtain ⟨idx, rule', hidx, hrule', -, hname⟩ :=
      hnamed u addr _ hparse haddr hpriv hcheck hallowed
    obtain rfl := Option.some.inj hidx
    have hat : rules[0 + before.length]? = some rule := by simp [hrules]
    obtain rfl := Option.some.inj (hat.symm.trans hrule')
    exact not_namesAddress_of_wildcard hstar addr hname
  · intro hwild u addr decision hparse haddr hpriv hcheck hallowed
    obtain ⟨hauth, v, idx, hparse', hgate, hexclude, hhit, rfl⟩ :=
      check_allowed_iff.mp ⟨hcheck, hallowed⟩
    obtain rfl := Option.some.inj (hparse.symm.trans hparse')
    obtain ⟨before, rule, after, hrules, hbefore, hmatch, rfl⟩ :=
      FirstHit.firstHit_eq_some_iff.mp hhit
    have hoptin : rules.any ruleAllowsPrivate = true := by
      simpa [gateOpen, ScopeEngine.fromRules, hpriv] using hgate
    have hstar : startsWith rule.host "*." = false := by
      by_contra hstar
      exact hwild hauth hoptin u hparse hpriv ⟨FirstHit.firstHit_eq_none_iff.mp hexclude, before,
        rule, after, hrules, hbefore, hmatch, by simpa using hstar⟩
    obtain ⟨hkind, hhost⟩ := hostMatches_of_kindMatches hmatch
    have hrules' : rules = before ++ rule :: after := hrules
    exact ⟨_, rule, rfl, by simp [hrules'], hkind, namesAddress_of_hostMatches hstar hhost haddr⟩

theorem officeHost_ok : ∃ v : String, 1 ≤ v.length ∧ v.length ≤ 253 ∧ lowerHost v = "10.0.0.0/8" :=
  ⟨"10.0.0.0/8", by decide⟩

def officeBlock : ScopeRule := .ofHost "10.0.0.0/8" officeHost_ok

/-- The block opts in for a wildcard that the loopback address happens to end like. -/
theorem not_reachedByName_loopbackWildcard :
    ¬ ReachedByName (fun _ ↦ none) [loopbackWildcard, officeBlock] true "https://127.0.0.1/" none := by
  have hfirst : WildcardFirst (fun _ ↦ none) [loopbackWildcard, officeBlock]
      ⟨"https", "127.0.0.1", 443, "/", none⟩ := by
    refine ⟨?_, [], loopbackWildcard, [officeBlock], rfl, by simp, by decide +kernel, by decide⟩
    simp only [List.mem_cons, List.not_mem_nil, or_false, forall_eq_or_imp, forall_eq]
    exact ⟨by decide +kernel, by decide +kernel⟩
  intro hnamed
  obtain ⟨idx, rule, hidx, hrule, -, hname⟩ := hnamed ⟨"https", "127.0.0.1", 443, "/", none⟩
    (.v4 0x7f000001) ⟨true, "included by rule #0", some 0⟩ (by decide +kernel) (by decide +kernel)
    (by decide +kernel) (by decide +kernel) rfl
  obtain rfl := Option.some.inj hidx
  obtain rfl := Option.some.inj hrule
  exact not_namesAddress_of_wildcard (by decide) _ hname

end Vantage.Scope
