import Mathlib.Tactic

/-!
# Dates

The civil date of an instant in the proleptic Gregorian calendar. Years are
counted from the first of March, so that the leap day is the last of a year.
-/

namespace Calendar

structure Date where
  year : ℤ
  month : ℤ
  day : ℤ
deriving DecidableEq, Repr

/-- The date that lies some days after the first of January 1970. -/
def dateOf (days : ℤ) : Date :=
  let z := days + 719468
  let era := z / 146097
  let dayOfEra := z % 146097
  let yearOfEra :=
    (dayOfEra - dayOfEra / 1460 + dayOfEra / 36524 - dayOfEra / 146096) / 365
  let dayOfYear := dayOfEra - (365 * yearOfEra + yearOfEra / 4 - yearOfEra / 100)
  let monthFromMarch := (5 * dayOfYear + 2) / 153
  let month := if monthFromMarch < 10 then monthFromMarch + 3 else monthFromMarch - 9
  { year := yearOfEra + era * 400 + if month ≤ 2 then 1 else 0
    month := month
    day := dayOfYear - (153 * monthFromMarch + 2) / 5 + 1 }

example : dateOf 0 = ⟨1970, 1, 1⟩ := by decide

example : dateOf 19782 = ⟨2024, 2, 29⟩ := by decide

def padded (width : ℕ) (n : ℤ) : String :=
  let digits := (toString n).toList
  String.ofList (List.replicate (width - digits.length) '0' ++ digits)

def microsPerDay : ℤ := 24 * 60 * 60 * 1000000

/-- An instant in microseconds, as `str` of a `datetime` in UTC prints it. -/
def isoText (micros : ℤ) : String :=
  let date := dateOf (micros / microsPerDay)
  let rest := micros % microsPerDay
  let seconds := rest / 1000000
  let fraction := rest % 1000000
  padded 4 date.year ++ "-" ++ padded 2 date.month ++ "-" ++ padded 2 date.day ++ " " ++
    padded 2 (seconds / 3600) ++ ":" ++ padded 2 (seconds / 60 % 60) ++ ":" ++
    padded 2 (seconds % 60) ++ (if fraction = 0 then "" else "." ++ padded 6 fraction) ++ "+00:00"

end Calendar
