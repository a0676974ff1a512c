import Mathlib.Tactic

/-!
# Shared primitives of the domain model
-/

namespace Vantage

/-- Timestamps are UTC instants counted in microseconds. -/
abbrev Time := ℤ

/-- The exceptions that the modelled code raises or catches. -/
inductive PyError where
  | valueError
  | regexError
  | validationError
  | illegalTransition
  | keyError
  | recursionError
  | typeError
  | attributeError
  | indexError
  | overflowError
  | jsonDecodeError
  | integrityError
  | other (message : String)
deriving DecidableEq, Repr

inductive Severity where
  | info
  | low
  | medium
  | high
  | critical
deriving DecidableEq, Repr

def Severity.value : Severity → String
  | .info => "info"
  | .low => "low"
  | .medium => "medium"
  | .high => "high"
  | .critical => "critical"

def Severity.rank : Severity → ℕ
  | .info => 0
  | .low => 1
  | .medium => 2
  | .high => 3
  | .critical => 4

/-- How sure the product is that a finding is real. -/
inductive Confidence where
  | tentative
  | firm
  | confirmed
  | falsePositive
deriving DecidableEq, Repr

def Confidence.value : Confidence → String
  | .tentative => "tentative"
  | .firm => "firm"
  | .confirmed => "confirmed"
  | .falsePositive => "false_positive"

def Confidence.rank : Confidence → ℤ
  | .falsePositive => -1
  | .tentative => 0
  | .firm => 1
  | .confirmed => 2

inductive LicenseClass where
  | green
  | yellow
  | red
  | unknown
deriving DecidableEq, Repr

inductive ApprovalStatus where
  | approved
  | pendingReview
  | rejected
deriving DecidableEq, Repr

end Vantage
