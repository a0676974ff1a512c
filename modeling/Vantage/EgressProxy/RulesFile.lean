import Vantage.EgressProxy.Agreement
import Vantage.Lib.Json

/-!
# The rules of the proxy and its requests

The rules come from a file that nothing has checked: the decoder fills the
fields it knows, takes `null` for "leave it as it is" and refuses only values
of a wrong type. What is left of a rule is then decided request by request.
-/

namespace Vantage.EgressProxy

namespace RulesFile

/-! ## Decoding -/

/-- The smallest character of those that differ from `c` by case alone, when one
of them is in ASCII. -/
def foldRune (c : Char) : Char :=
  if c = '\u017f' then 'S' else if c = '\u212a' then 'K' else c.toUpper

def foldName (name : String) : List Char := name.toList.map foldRune

/-- The elements of a slice, and those behind its end in the same array. -/
structure Slice (α : Type) where
  items : List α
  spare : List α

variable {α : Type}

/-- Elements are decoded into the places of the array, old contents included. -/
def fill (decode : α → Json → Option α) (zero : α) : List α → List Json → Option (Slice α)
  | cells, [] => some ⟨[], cells⟩
  | cells, value :: values => do
      let item ← decode (cells.headD zero) value
      let rest ← fill decode zero cells.tail values
      some ⟨item :: rest.items, rest.spare⟩

def decodeSlice (decode : α → Json → Option α) (zero : α) (old : Option (Slice α)) :
    Json → Option (Option (Slice α))
  | .null => some none
  | .arr [] => some (some ⟨[], []⟩)
  | .arr values => (fill decode zero (old.elim [] fun s ↦ s.items ++ s.spare) values).map some
  | _ => none

def decodeString (old : String) : Json → Option String
  | .null => some old
  | .str s => some s
  | _ => none

def decodeInt (old : ℤ) : Json → Option ℤ
  | .null => some old
  | .num n => if fitsInt n then some n else none
  | _ => none

def decodePointer : Json → Option (Option String)
  | .null => some none
  | .str s => some (some s)
  | _ => none

/-- A rule while its object is read. -/
structure Cells where
  kind : String
  host : String
  schemes : Option (Slice String)
  ports : Option (Slice ℤ)
  pathPrefix : String
  pathRegex : Option String
  methods : Option (Slice String)

def zeroCells : Cells := ⟨"", "", none, none, "", none, none⟩

/-- A member that names no field is skipped. -/
def setField (cells : Cells) (field : String × Json) : Option Cells :=
  let names (name : String) : Bool := foldName field.1 == foldName name
  if names "kind" then
    (decodeString cells.kind field.2).map fun v ↦ { cells with kind := v }
  else if names "host" then
    (decodeString cells.host field.2).map fun v ↦ { cells with host := v }
  else if names "schemes" then
    (decodeSlice decodeString "" cells.schemes field.2).map fun v ↦ { cells with schemes := v }
  else if names "ports" then
    (decodeSlice decodeInt 0 cells.ports field.2).map fun v ↦ { cells with ports := v }
  else if names "path_prefix" then
    (decodeString cells.pathPrefix field.2).map fun v ↦ { cells with pathPrefix := v }
  else if names "path_regex" then
    (decodePointer field.2).map fun v ↦ { cells with pathRegex := v }
  else if names "methods" then
    (decodeSlice decodeString "" cells.methods field.2).map fun v ↦ { cells with methods := v }
  else some cells

def Cells.rule (cells : Cells) : ScopeRule where
  kind := cells.kind
  host := cells.host
  schemes := cells.schemes.elim [] Slice.items
  ports := cells.ports.map Slice.items
  pathPrefix := cells.pathPrefix
  pathRegex := cells.pathRegex
  methods := cells.methods.map Slice.items

def decodeRule : Json → Option ScopeRule
  | .null => some zeroCells.rule
  | .obj members => (members.foldlM setField zeroCells).map Cells.rule
  | _ => none

/-- `json.Unmarshal` into the list of rules; `none` is its error. -/
def loadRules : Json → Option (List ScopeRule)
  | .null => some []
  | .arr values => values.mapM decodeRule
  | _ => none

end RulesFile

/-! ## Kinds -/

def isInclude (r : ScopeRule) : Bool := r.kind == "" || Text.lower r.kind == "include"

/-- The kinds of the contract, and an absent one. -/
def isKnown (r : ScopeRule) : Bool := isInclude r || isExclude r

theorem not_isExclude_of_isInclude {r : ScopeRule} (h : isInclude r = true) :
    isExclude r = false := by
  simp only [isInclude, Bool.or_eq_true, beq_iff_eq] at h
  rcases h with h | h
  · simp only [isExclude, h]
    decide
  · simp only [isExclude, h]
    decide

/-! ## What a request needs -/

variable (re : Scope.RegexEngine (List UInt8)) (rules : List ScopeRule)

/-- The tests of a rule other than its pattern. -/
def reaches (r : ScopeRule) (u : ParsedUrl) : Bool :=
  originMatches r u && prefixMatches r.pathPrefix u.path && methodMatches r.methods u.method

/-- The pattern of a rule matches the path or is refused by the compiler. -/
def patternBars (r : ScopeRule) (path : List UInt8) : Bool :=
  r.pathRegex.any fun p ↦ (re p).all fun search ↦ search path

def patternRefused (r : ScopeRule) : Bool := r.pathRegex.any fun p ↦ (re p).isNone

/-- `Check` for rules just loaded. -/
def allowed (authorized : Bool) (parsed : Option ParsedUrl) : Bool :=
  ((newScopeEngine rules authorized).checkParsed re parsed).allowed

/-- A request that is allowed matches an include rule, is reached by no exclude
rule with a pattern that matches or does not compile, and needs no rule of
another kind. -/
structure FailsClosed (authorized : Bool) (u : ParsedUrl) : Prop where
  included : ∃ r ∈ rules, isInclude r = true ∧ ruleMatches re r u = true
  not_barred : ∀ r ∈ rules, isExclude r = true → reaches r u = true →
    patternBars re r u.path = false
  unwidened : allowed re (rules.filter isKnown) authorized (some u) = true

/-- No rule of a kind beyond the contract decides on the request, by matching it or
by opting into private addresses, and the exclude rules that the request reaches
have patterns that compile. -/
structure Understood (u : ParsedUrl) : Prop where
  match_idle : ∀ r ∈ rules, isKnown r = false → ruleMatches re r u = true →
    ∃ r' ∈ rules, isInclude r' = true ∧ ruleMatches re r' u = true
  optIn_idle : ∀ r ∈ rules, isKnown r = false → ruleAllowsPrivate r = true →
    isPrivateLiteral u.host = true → ∃ r' ∈ rules, isKnown r' = true ∧ ruleAllowsPrivate r' = true
  compiled : ∀ r ∈ rules, isExclude r = true → reaches r u = true → patternRefused re r = false

/-- The rules of a file fail closed at a request. -/
def FailsClosedAt (json : Json) (authorized : Bool) (parsed : Option ParsedUrl) : Prop :=
  ∀ rules ∈ RulesFile.loadRules json, allowed re rules authorized parsed = true →
    ∀ u ∈ parsed, FailsClosed re rules authorized u

/-- The rules of a file are understood at a request that passes the first checks,
that no exclude rule matches and that some other rule does. -/
def UnderstoodAt (json : Json) (authorized : Bool) (parsed : Option ParsedUrl) : Prop :=
  ∀ rules ∈ RulesFile.loadRules json, authorized = true → ∀ u ∈ parsed,
    gateOpen (newScopeEngine rules authorized) u = true → RulesCover re rules u →
      Understood re rules u

variable {re} {rules}

theorem ruleMatches_eq_reaches (r : ScopeRule) (u : ParsedUrl) :
    ruleMatches re r u = (reaches r u && regexMatches re r.pathRegex u.path) := by
  simp only [ruleMatches, pathMatches, reaches, Bool.and_assoc, Bool.and_comm]

/-- A pattern that bars a path without matching it is one that is refused. -/
theorem patternBars_of_not_regexMatches {r : ScopeRule} {path : List UInt8}
    (h : regexMatches re r.pathRegex path = false) :
    patternBars re r path = patternRefused re r := by
  unfold regexMatches at h
  unfold patternBars patternRefused
  cases hp : r.pathRegex with
  | none => rfl
  | some p =>
      rw [hp] at h
      cases hc : re p with
      | none => simp [hc]
      | some search =>
          simp only [hc] at h
          simp [hc, h]

theorem allowed_iff {authorized : Bool} {u : ParsedUrl} :
    allowed re rules authorized (some u) = true ↔
      authorized = true ∧ gateOpen (newScopeEngine rules authorized) u = true ∧
        RulesCover re rules u := by
  simp [allowed, checkParsed_allowed_iff, newScopeEngine]

theorem gateOpen_iff {authorized : Bool} {u : ParsedUrl} :
    gateOpen (newScopeEngine rules authorized) u = true ↔
      (isPrivateLiteral u.host = true → ∃ r ∈ rules, ruleAllowsPrivate r = true) := by
  cases h : isPrivateLiteral u.host <;> simp [gateOpen, newScopeEngine, h]

/-- Rules of other kinds exclude nothing. -/
theorem rulesCover_known_iff {u : ParsedUrl} : RulesCover re (rules.filter isKnown) u ↔
    (∀ r ∈ rules, isExclude r = true → ruleMatches re r u = false) ∧
      ∃ r ∈ rules, isInclude r = true ∧ ruleMatches re r u = true := by
  simp only [RulesCover, List.mem_filter]
  refine and_congr ⟨fun h r hr hx ↦ h r ⟨hr, by simp [isKnown, hx]⟩ hx, fun h r hr ↦ h r hr.1⟩ ?_
  constructor
  · rintro ⟨r, ⟨hr, hknown⟩, hx, hm⟩
    refine ⟨r, hr, ?_, hm⟩
    simpa [isKnown, hx] using hknown
  · rintro ⟨r, hr, hi, hm⟩
    exact ⟨r, ⟨hr, by simp [isKnown, hi]⟩, not_isExclude_of_isInclude hi, hm⟩

theorem allowed_known_iff {authorized : Bool} {u : ParsedUrl} :
    allowed re (rules.filter isKnown) authorized (some u) = true ↔
      authorized = true ∧
        (isPrivateLiteral u.host = true →
          ∃ r ∈ rules, isKnown r = true ∧ ruleAllowsPrivate r = true) ∧
        (∀ r ∈ rules, isExclude r = true → ruleMatches re r u = false) ∧
          ∃ r ∈ rules, isInclude r = true ∧ ruleMatches re r u = true := by
  rw [allowed_iff, gateOpen_iff, rulesCover_known_iff]
  simp only [List.mem_filter, and_assoc]

/-- Among rules that exclude nothing, only a refused pattern bars a request. -/
theorem not_barred_iff {u : ParsedUrl}
    (h : ∀ r ∈ rules, isExclude r = true → ruleMatches re r u = false) :
    (∀ r ∈ rules, isExclude r = true → reaches r u = true → patternBars re r u.path = false) ↔
      ∀ r ∈ rules, isExclude r = true → reaches r u = true → patternRefused re r = false := by
  refine forall₂_congr fun r hr ↦ forall₂_congr fun hx hreach ↦ ?_
  have hm := h r hr hx
  rw [ruleMatches_eq_reaches, hreach, Bool.true_and] at hm
  rw [patternBars_of_not_regexMatches hm]

/-- The rule that lets a request through is an include rule, or of another kind. -/
theorem included_iff {u : ParsedUrl} (h : RulesCover re rules u) :
    (∃ r ∈ rules, isInclude r = true ∧ ruleMatches re r u = true) ↔
      ∀ r ∈ rules, isKnown r = false → ruleMatches re r u = true →
        ∃ r' ∈ rules, isInclude r' = true ∧ ruleMatches re r' u = true := by
  refine ⟨fun hin _ _ _ _ ↦ hin, fun hidle ↦ ?_⟩
  obtain ⟨r, hr, hx, hm⟩ := h.2
  by_cases hknown : isKnown r = true
  · exact ⟨r, hr, by simpa [isKnown, hx] using hknown, hm⟩
  · exact hidle r hr (Bool.eq_false_iff.mpr hknown) hm

theorem optedIn_iff {authorized : Bool} {u : ParsedUrl}
    (h : gateOpen (newScopeEngine rules authorized) u = true) :
    (isPrivateLiteral u.host = true →
      ∃ r ∈ rules, isKnown r = true ∧ ruleAllowsPrivate r = true) ↔
      ∀ r ∈ rules, isKnown r = false → ruleAllowsPrivate r = true →
        isPrivateLiteral u.host = true →
          ∃ r' ∈ rules, isKnown r' = true ∧ ruleAllowsPrivate r' = true := by
  refine ⟨fun hin _ _ _ _ ↦ hin, fun hidle hprivate ↦ ?_⟩
  obtain ⟨r, hr, hopt⟩ := gateOpen_iff.mp h hprivate
  by_cases hknown : isKnown r = true
  · exact ⟨r, hr, hknown, hopt⟩
  · exact hidle r hr (Bool.eq_false_iff.mpr hknown) hopt hprivate

theorem failsClosed_iff_understood (re : Scope.RegexEngine (List UInt8)) (json : Json)
    (authorized : Bool) (parsed : Option ParsedUrl) :
    FailsClosedAt re json authorized parsed ↔ UnderstoodAt re json authorized parsed := by
  refine forall₂_congr fun rules _ ↦ ?_
  cases parsed with
  | none => simp
  | some u =>
      simp only [Option.mem_def, Option.some.injEq, forall_eq', allowed_iff, and_imp]
      refine forall_congr' fun hauth ↦ forall₂_congr fun hgate hcover ↦ ?_
      constructor
      · rintro ⟨hin, hbar, hwide⟩
        have hopt := (allowed_known_iff.mp hwide).2.1
        exact ⟨(included_iff hcover).mp hin, (optedIn_iff hgate).mp hopt,
          (not_barred_iff hcover.1).mp hbar⟩
      · rintro ⟨hidle, hoptIdle, hcomp⟩
        have hin := (included_iff hcover).mpr hidle
        have hopt := (optedIn_iff hgate).mpr hoptIdle
        exact ⟨hin, (not_barred_iff hcover.1).mpr hcomp,
          allowed_known_iff.mpr ⟨hauth, hopt, hcover.1, hin⟩⟩

/-- Rules of the kinds of the contract whose patterns compile are understood for
every request. -/
theorem understood_of_known (hknown : ∀ r ∈ rules, isKnown r = true)
    (hcomp : ∀ r ∈ rules, patternRefused re r = false) (u : ParsedUrl) : Understood re rules u where
  match_idle r hr h := absurd (hknown r hr) (Bool.eq_false_iff.mp h)
  optIn_idle r hr h := absurd (hknown r hr) (Bool.eq_false_iff.mp h)
  compiled r hr _ _ := hcomp r hr

/-! ## Rules that are not understood -/

/-- One rule of the kind "deny". -/
def denyFile : Json :=
  .arr [.obj [("kind", .str "deny"), ("host", .str "app.example")]]

/-- An include rule, and an exclude rule with a pattern that does not compile. -/
def lookaheadFile : Json :=
  .arr [.obj [("host", .str "app.example")],
    .obj [("kind", .str "exclude"), ("host", .str "app.example"),
      ("path_regex", .str "^/(?!public)")]]

/-- An include rule without an address, and a rule of another kind with a slash. -/
def slashFile : Json :=
  .arr [.obj [("host", .str "*.0.0.1")], .obj [("kind", .str "note"), ("host", .str "n/a")]]

theorem not_failsClosed :
    ¬ FailsClosedAt (fun _ ↦ none) denyFile true
        (parseUrl (appUrl "/" (by decide) (by decide)) "GET") ∧
    ¬ FailsClosedAt (fun _ ↦ none) lookaheadFile true
        (parseUrl (appUrl "/" (by decide) (by decide)) "GET") ∧
    ¬ FailsClosedAt (fun _ ↦ none) slashFile true
        (parseUrl (httpUrl "127.0.0.1" none "/" (by decide) (by decide) (by decide) (by decide))
          "GET") := by
  refine ⟨fun h ↦ ?_, fun h ↦ ?_, fun h ↦ ?_⟩
  · obtain ⟨⟨r, hr, hin, -⟩, -, -⟩ := h _ rfl (by decide) _ rfl
    rw [List.mem_singleton.mp hr] at hin
    exact absurd hin (by decide)
  · obtain ⟨-, hbar, -⟩ := h _ rfl (by decide) _ rfl
    have hlast := hbar _ (List.mem_cons_of_mem _ List.mem_cons_self) (by decide) (by decide)
    exact absurd hlast (by decide)
  · obtain ⟨-, -, hwide⟩ := h _ rfl (by decide) _ rfl
    exact absurd hwide (by decide)

end Vantage.EgressProxy
