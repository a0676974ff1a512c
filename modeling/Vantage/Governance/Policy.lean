import Vantage.Domain.Common
import Vantage.Lib.AndOr
import Vantage.Lib.ExceptList
import Vantage.Lib.SplitText

/-!
# The license policy

Classification of a license identifier, or of an expression over such
identifiers, by a text split: first at every ` OR `, then at every ` AND `,
with the parentheses at the ends of each piece dropped.
-/

namespace Vantage.Governance

open Text

/-! ## Severity -/

def severity : LicenseClass → ℕ
  | .green => 0
  | .yellow => 1
  | .unknown => 2
  | .red => 3

theorem severity_injective : Function.Injective severity := by
  intro a b h
  cases a <;> cases b <;> simp_all [severity]

instance : LinearOrder LicenseClass := LinearOrder.lift' severity severity_injective

theorem severity_lt_iff {a b : LicenseClass} : severity a < severity b ↔ a < b := Iff.rfl

instance : BoundedOrder LicenseClass where
  top := .red
  le_top a := by cases a <;> decide
  bot := .green
  bot_le a := by cases a <;> decide

/-! ## The engine -/

structure PolicyDecision where
  licenseId : String
  licenseClass : LicenseClass
  action : String
  reason : String
deriving DecidableEq, Repr

structure LicensePolicy where
  classToSpdx : List (LicenseClass × List String)
  unknownAction : String
  armsLengthIntegrationTypes : List String

/-- The table from identifiers in lower case; a later entry replaces an earlier one. -/
def LicensePolicy.spdxToClass (policy : LicensePolicy) (key : String) : Option LicenseClass :=
  (policy.classToSpdx.flatMap fun entry ↦
    entry.2.map fun spdx ↦ (lower spdx, entry.1)).reverse.lookup key

def actionByClass : LicenseClass → Option String
  | .green => some "allow"
  | .yellow => some "review"
  | .red => some "block"
  | .unknown => none

def isParen (c : Char) : Bool := c == '(' || c == ')'

def split (expr sep : List Char) : List (List Char) :=
  ((splitCI sep expr).filter fun p ↦ !(stripChars isSpace p).isEmpty).map fun p ↦
    stripChars isSpace (stripChars isParen (stripChars isSpace p))

/-- `min(parts, key=…)`: the first of the least severe. -/
def leastSevere : List PolicyDecision → Except PyError PolicyDecision
  | [] => .error .valueError
  | d :: ds => .ok (ds.foldl (fun best d ↦
      if severity d.licenseClass < severity best.licenseClass then d else best) d)

/-- `max(parts, key=…)`: the first of the most severe. -/
def mostSevere : List PolicyDecision → Except PyError PolicyDecision
  | [] => .error .valueError
  | d :: ds => .ok (ds.foldl (fun worst d ↦
      if severity worst.licenseClass < severity d.licenseClass then d else worst) d)

def orSep : List Char := " OR ".toList

def andSep : List Char := " AND ".toList

/-- `classify`, with a bound on the depth of the recursion. -/
def LicensePolicy.classifyWithin (policy : LicensePolicy) :
    ℕ → List Char → Except PyError PolicyDecision
  | 0, _ => .error .recursionError
  | n + 1, licenseId =>
      let raw := stripChars isSpace licenseId
      if raw.isEmpty then
        .ok ⟨String.ofList licenseId, .unknown, policy.unknownAction, "empty"⟩
      else if containsCI orSep raw then do
        let parts ← (split raw orSep).mapM (policy.classifyWithin n)
        let best ← leastSevere parts
        .ok ⟨String.ofList raw, best.licenseClass, best.action,
          "OR -> most permissive: " ++ best.licenseId⟩
      else if containsCI andSep raw then do
        let parts ← (split raw andSep).mapM (policy.classifyWithin n)
        let worst ← mostSevere parts
        .ok ⟨String.ofList raw, worst.licenseClass, worst.action,
          "AND -> most restrictive: " ++ worst.licenseId⟩
      else
        match policy.spdxToClass (lower (String.ofList raw)) with
        | none => .ok ⟨String.ofList raw, .unknown, policy.unknownAction, "not in policy table"⟩
        | some cls =>
            match actionByClass cls with
            | none => .error .keyError
            | some action => .ok ⟨String.ofList raw, cls, action, "policy table"⟩

def LicensePolicy.classify (policy : LicensePolicy) (licenseId : String) :
    Except PyError PolicyDecision :=
  policy.classifyWithin (licenseId.toList.length + 1) licenseId.toList

/-! ## Termination -/

theorem length_lt_of_mem_split {expr sep p : List Char} (hsep : sep ≠ [])
    (hcontains : containsCI sep expr = true) (h : p ∈ split expr sep) :
    p.length < expr.length := by
  obtain ⟨q, hq, rfl⟩ := List.mem_map.mp h
  have hlt := length_lt_of_mem_splitFrom hsep hcontains (List.mem_filter.mp hq).1
  have h₁ := length_stripChars_le isSpace q
  have h₂ := length_stripChars_le isParen (stripChars isSpace q)
  have h₃ := length_stripChars_le isSpace (stripChars isParen (stripChars isSpace q))
  simp only [List.length_nil, Nat.zero_add] at hlt
  omega

theorem leastSevere_ne_recursionError (ds : List PolicyDecision) :
    leastSevere ds ≠ .error .recursionError := by
  cases ds <;> simp [leastSevere]

theorem mostSevere_ne_recursionError (ds : List PolicyDecision) :
    mostSevere ds ≠ .error .recursionError := by
  cases ds <;> simp [mostSevere]

/-- The depth of the recursion is less than the length of the text. -/
theorem classifyWithin_ne_recursionError (policy : LicensePolicy) {n : ℕ} {licenseId : List Char}
    (h : licenseId.length < n) :
    policy.classifyWithin n licenseId ≠ .error .recursionError := by
  induction n generalizing licenseId with
  | zero => omega
  | succ n ih =>
      have hraw := length_stripChars_le isSpace licenseId
      have hparts : ∀ sep, sep ≠ [] → containsCI sep (stripChars isSpace licenseId) = true →
          (split (stripChars isSpace licenseId) sep).mapM (policy.classifyWithin n) ≠
            .error .recursionError := by
        intro sep hsep hcontains herror
        obtain ⟨p, hp, hpe⟩ := ExceptList.exists_of_mapM_eq_error herror
        have hlt := length_lt_of_mem_split hsep hcontains hp
        exact ih (by omega) hpe
      unfold LicensePolicy.classifyWithin
      simp only
      split_ifs with hempty hor hand
      · simp
      · have hne := hparts orSep (by decide) hor
        cases hm : (split (stripChars isSpace licenseId) orSep).mapM (policy.classifyWithin n) with
        | error e => exact fun he ↦ hne (hm.trans (by simpa [bind, Except.bind] using he))
        | ok parts =>
            have hleast := leastSevere_ne_recursionError parts
            cases hl : leastSevere parts with
            | error e => exact fun he ↦ hleast (hl.trans (by simpa [hl, bind, Except.bind] using he))
            | ok best => simp [hl, bind, Except.bind]
      · have hne := hparts andSep (by decide) hand
        cases hm : (split (stripChars isSpace licenseId) andSep).mapM (policy.classifyWithin n) with
        | error e => exact fun he ↦ hne (hm.trans (by simpa [bind, Except.bind] using he))
        | ok parts =>
            have hmost := mostSevere_ne_recursionError parts
            cases hl : mostSevere parts with
            | error e => exact fun he ↦ hmost (hl.trans (by simpa [hl, bind, Except.bind] using he))
            | ok worst => simp [hl, bind, Except.bind]
      · cases policy.spdxToClass (lower (String.ofList (stripChars isSpace licenseId))) with
        | none => simp
        | some cls => cases cls <;> simp [actionByClass]

/-- Classification always comes to an end. -/
theorem classify_ne_recursionError (policy : LicensePolicy) (licenseId : String) :
    policy.classify licenseId ≠ .error .recursionError :=
  classifyWithin_ne_recursionError policy (Nat.lt_succ_self _)

end Vantage.Governance
