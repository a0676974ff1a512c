import Vantage.Domain.Finding

/-!
# The cap on evidence bodies

A body is cut at a number of bytes and decoded again, so what is left of it is a
prefix of whole characters. The flag that tells of a cut is a field of its own,
which the validator of the body does not write.
-/

namespace Vantage

/-! ## The cut on bytes -/

theorem decodeIgnore_take_encode (l : List Char) (budget : ℕ) :
    Utf8.decodeIgnore ((Utf8.encode l).take budget) = takeBytes budget l := by
  induction l generalizing budget with
  | nil => rw [Utf8.encode_nil, List.take_nil]; rfl
  | cons c l ih =>
      rw [Utf8.decodeIgnore_take_encode_cons, takeBytes]
      split_ifs with hwithin
      · rw [ih]
      · rfl

/-- `_cap_body` as the source computes it. -/
theorem capBody_eq (v : String) : capBody v =
    if maxEvidenceBody < (Utf8.encode v.toList).length then
      String.ofList (Utf8.decodeIgnore ((Utf8.encode v.toList).take maxEvidenceBody))
    else v := by
  rw [decodeIgnore_take_encode, capBody]

/-! ## What is stored -/

/-- The body fits into what is kept inline. -/
def WithinCap (b : String) : Prop := (Utf8.encode b.toList).length ≤ maxEvidenceBody

variable {b : String}

theorem prefix_takeBytes (l : List Char) (budget : ℕ) : takeBytes budget l <+: l := by
  induction l generalizing budget with
  | nil => exact List.nil_prefix
  | cons c l ih =>
      unfold takeBytes
      split_ifs with hwithin
      · exact List.cons_prefix_cons.mpr ⟨rfl, ih _⟩
      · exact List.nil_prefix

theorem capBody_of_withinCap (h : WithinCap b) : capBody b = b := if_neg (not_lt.mpr h)

theorem prefix_capBody (b : String) : (capBody b).toList <+: b.toList := by
  by_cases h : WithinCap b
  · rw [capBody_of_withinCap h]
  · rw [capBody, if_pos (not_le.mp h), String.toList_ofList]
    exact prefix_takeBytes _ _

/-- What is cut has lost a character. -/
theorem length_capBody_lt (h : ¬ WithinCap b) : (capBody b).length < b.length := by
  rw [← String.length_toList, ← String.length_toList]
  have hcut := prefix_capBody b
  refine lt_of_le_of_ne hcut.length_le fun hlength ↦ h ?_
  rw [WithinCap, ← hcut.eq_of_length hlength]
  exact length_encode_capBody b

/-- The stored body and flag of a message that was built with body `b`. -/
structure Capped (b stored : String) (flag : Bool) : Prop where
  cut : stored.toList <+: b.toList
  bounded : (Utf8.encode stored.toList).length ≤ maxEvidenceBody
  kept : WithinCap b → stored = b
  visible : stored.length < b.length → flag = true

theorem capped_capBody_iff {flag : Bool} :
    Capped b (capBody b) flag ↔ WithinCap b ∨ flag = true := by
  constructor
  · intro h
    by_cases hwithin : WithinCap b
    · exact Or.inl hwithin
    · exact Or.inr (h.visible (length_capBody_lt hwithin))
  · intro h
    refine ⟨prefix_capBody b, length_encode_capBody b, capBody_of_withinCap, fun hshort ↦ ?_⟩
    refine h.resolve_left fun hwithin ↦ ?_
    rw [capBody_of_withinCap hwithin] at hshort
    exact lt_irrefl _ hshort

/-- Whatever the other fields are: the body is capped, the flag tells of it, and
validating the stored message again changes nothing. -/
def CappedVisibly (raw : RawHttpMessage) (b : String) : Prop :=
  let m := HttpMessage.modelValidate { raw with body := some b }
  (∃ stored, m.body = some stored ∧ Capped b stored m.bodyTruncated) ∧ m.revalidate = m

theorem cappedVisibly_iff (raw : RawHttpMessage) (b : String) :
    CappedVisibly raw b ↔ WithinCap b ∨ raw.bodyTruncated = true := by
  rw [← capped_capBody_iff]
  constructor
  · rintro ⟨⟨stored, hstored, hcapped⟩, -⟩
    obtain rfl : capBody b = stored := Option.some.inj hstored
    exact hcapped
  · exact fun h ↦ ⟨⟨capBody b, rfl, h⟩, HttpMessage.revalidate_eq _⟩

/-- A body of one byte more than is kept. -/
def longBody : String := String.ofList (List.replicate (maxEvidenceBody + 1) 'a')

theorem not_withinCap_longBody : ¬ WithinCap longBody := by
  have hencode : ∀ n, (Utf8.encode (List.replicate n 'a')).length = n := by
    intro n
    induction n with
    | zero => rfl
    | succ n ih =>
        have hchar : (String.utf8EncodeChar 'a').length = 1 := by decide
        rw [List.replicate_succ, Utf8.encode_cons, List.length_append, hchar, ih, Nat.add_comm]
  rw [WithinCap, longBody, String.toList_ofList, hencode]
  exact not_le.mpr (Nat.lt_succ_self _)

/-- With the default of the flag, the cut of the body cannot be seen. -/
theorem not_cappedVisibly_longBody : ¬ CappedVisibly {} longBody := by
  rintro ⟨⟨stored, hstored, hcapped⟩, -⟩
  obtain rfl : capBody longBody = stored := Option.some.inj hstored
  exact absurd (hcapped.visible (length_capBody_lt not_withinCap_longBody)) Bool.false_ne_true

end Vantage
