import Vantage.Domain.Finding

/-!
# The risk engine

A finding is scored from 0 to 100 by its severity, its confidence, the number of
its engines and its category. The score is computed with doubles.
-/

namespace Vantage.Findings

/-! ## Doubles -/

/-- The number that a finite double stands for. -/
def exactValue (x : Float) : ℚ :=
  let bits := x.toBits.toNat
  let sign : ℚ := if bits / 2 ^ 63 = 1 then -1 else 1
  let exponent : ℕ := bits / 2 ^ 52 % 2 ^ 11
  let fraction : ℕ := bits % 2 ^ 52
  if exponent = 0 then sign * fraction / 2 ^ 1074
  else if exponent < 1075 then sign * (2 ^ 52 + fraction) / 2 ^ (1075 - exponent)
  else sign * (2 ^ 52 + fraction) * 2 ^ (exponent - 1075)

def roundHalfEven (q : ℚ) : ℤ :=
  let below := ⌊q⌋
  if q - below < 1 / 2 then below
  else if 1 / 2 < q - below then below + 1
  else if below % 2 = 0 then below
  else below + 1

/-- `round(x, digits)`: the double next to the rounded decimal. -/
def roundTo (digits : ℕ) (x : Float) : Float :=
  let n := roundHalfEven (exactValue x * 10 ^ digits)
  let magnitude := Float.ofScientific n.natAbs true digits
  if n < 0 then -magnitude else magnitude

/-! ## Scores -/

def severityBase : Severity → Float
  | .info => 5.0
  | .low => 25.0
  | .medium => 50.0
  | .high => 75.0
  | .critical => 95.0

def confidenceFactor : Confidence → Float
  | .falsePositive => 0.0
  | .tentative => 0.6
  | .firm => 0.85
  | .confirmed => 1.0

def exposureBump : List (String × Float) :=
  [("sql_injection", 1.10), ("command_injection", 1.10), ("code_injection", 1.10),
    ("insecure_deserialization", 1.10), ("ssrf", 1.08), ("xxe", 1.06),
    ("broken_object_authz", 1.06), ("broken_access_control", 1.06), ("secret_exposure", 1.05),
    ("xss", 1.03)]

def exposureDiscount : List (String × Float) :=
  [("missing_security_header", 0.9), ("information_disclosure", 0.92),
    ("directory_listing", 0.92), ("clickjacking", 0.9)]

def factorFor (table : List (String × Float)) (category : String) : Float :=
  ((table.find? (·.1 = category)).map Prod.snd).getD 1.0

structure RiskBreakdown where
  score : Float
  factors : List (String × Float) := []
  notes : List String := []

namespace RiskEngine

def score (finding : UnifiedFinding) : RiskBreakdown :=
  let base := severityBase finding.severity
  let conf := confidenceFactor finding.confidence
  let nEngines := finding.engines.length
  let corroboration := if 3 ≤ nEngines then 1.08 else if nEngines = 2 then 1.04 else 1.0
  let exposure := factorFor exposureBump finding.category *
    factorFor exposureDiscount finding.category
  let rounded := roundTo 1 (base * conf * corroboration * exposure)
  -- `max(0.0, min(100.0, rounded))`
  let capped := if rounded < 100.0 then rounded else 100.0
  { score := if 0.0 < capped then capped else 0.0
    factors := [("severity_base", base), ("confidence_factor", conf),
      ("corroboration", corroboration), ("exposure", roundTo 3 exposure)]
    notes :=
      (if finding.confidence = .confirmed then ["validated by Vantage validation engine"] else []) ++
      (if 2 ≤ nEngines then ["corroborated by " ++ toString nEngines ++ " engines"] else []) ++
      (if finding.confidence = .falsePositive then ["classified false positive; scored 0"] else []) }

def apply (finding : UnifiedFinding) : UnifiedFinding :=
  { finding with riskScore := exactValue (score finding).score }

end RiskEngine

/-! ## What a score depends on -/

variable {f f' : UnifiedFinding}

/-- Neither the identifiers nor the texts of a finding count. -/
theorem riskScore_congr (hseverity : f.severity = f'.severity)
    (hconfidence : f.confidence = f'.confidence) (hcategory : f.category = f'.category)
    (hengines : f.engines.length = f'.engines.length) :
    (RiskEngine.apply f).riskScore = (RiskEngine.apply f').riskScore := by
  simp only [RiskEngine.apply, RiskEngine.score, hseverity, hconfidence, hcategory, hengines]

/-- The product of the decimals is 15.45, that of the doubles lies above it. -/
example : roundTo 1 (severityBase .low * confidenceFactor .tentative * 1.0 * 1.03) = 15.5 := by
  decide +kernel

end Vantage.Findings
