import Vantage.Lib.JsonReader

/-!
# Printing JSON

`json.dumps` with an indent of two: members keep their order. What is printed
is read back as it was.
-/

namespace Json

open Text JsonText JsonReader

def newline (depth : ℕ) : List Char := '\n' :: List.replicate (2 * depth) ' '

/-- Brackets around the parts, each of them on a line of its own. -/
def layout (depth : ℕ) (opening closing : Char) (parts : List (List Char)) : List Char :=
  if parts = [] then [opening, closing]
  else opening :: newline (depth + 1) ++ List.intercalate (',' :: newline (depth + 1)) parts ++
    newline depth ++ [closing]

mutual

/-- `json.dumps(value, indent=2)` at a depth. -/
def pretty : Json → ℕ → List Char
  | .null, _ => "null".toList
  | .bool b, _ => if b then "true".toList else "false".toList
  | .num n, _ => (toString n).toList
  | .real x, _ => x.repr.toList
  | .str s, _ => quoted s
  | .arr items, depth => layout depth '[' ']' (prettyItems items (depth + 1))
  | .obj members, depth => layout depth '{' '}' (prettyMembers members (depth + 1))

def prettyItems : List Json → ℕ → List (List Char)
  | [], _ => []
  | item :: items, depth => pretty item depth :: prettyItems items depth

def prettyMembers : List (String × Json) → ℕ → List (List Char)
  | [], _ => []
  | (key, value) :: members, depth =>
      (quoted key ++ ':' :: ' ' :: pretty value depth) :: prettyMembers members depth

end

/-! ## Strings -/

variable {float : List Char → PyFloat} {rest : List Char}

theorem hexValue_digitChar : ∀ d < 16, hexValue (Nat.digitChar d) = some d := by decide

/-- Four digits, with zeros in front. -/
theorem hex4_eq {n : ℕ} (h : n < 65536) :
    hex4 n = [Nat.digitChar (n / 4096), Nat.digitChar (n / 256 % 16),
      Nat.digitChar (n / 16 % 16), Nat.digitChar (n % 16)] := by
  have hbase : 1 < 16 := by decide
  unfold hex4
  by_cases h₁ : n < 16
  · rw [Nat.toDigits_of_lt_base h₁]
    have hdigits : n / 4096 = 0 ∧ n / 256 % 16 = 0 ∧ n / 16 % 16 = 0 ∧ n % 16 = n := by omega
    simp [hdigits, List.replicate]
  · rw [Nat.toDigits_of_base_le hbase (by omega)]
    by_cases h₂ : n / 16 < 16
    · rw [Nat.toDigits_of_lt_base h₂]
      have hdigits : n / 4096 = 0 ∧ n / 256 % 16 = 0 ∧ n / 16 % 16 = n / 16 := by omega
      simp [hdigits, List.replicate]
    · rw [Nat.toDigits_of_base_le hbase (by omega)]
      by_cases h₃ : n / 16 / 16 < 16
      · rw [Nat.toDigits_of_lt_base h₃]
        have hdigits : n / 4096 = 0 ∧ n / 256 % 16 = n / 16 / 16 := by omega
        simp [hdigits]
      · rw [Nat.toDigits_of_base_le hbase (by omega), Nat.toDigits_of_lt_base (by omega)]
        have hdigits : n / 4096 = n / 16 / 16 / 16 ∧ n / 256 % 16 = n / 16 / 16 % 16 := by omega
        simp [hdigits]

theorem readUnit_hex4 {n : ℕ} (h : n < 65536) (rest : List Char) :
    readUnit (hex4 n ++ rest) = some (n, rest) := by
  have hvalue : ∀ d, d < 16 → hexValue (Nat.digitChar d) = some d := hexValue_digitChar
  rw [hex4_eq h]
  simp only [List.cons_append, List.nil_append, readUnit, hvalue _ (Nat.mod_lt _ (by decide)),
    hvalue (n / 4096) (by omega), Option.some.injEq, Prod.mk.injEq, and_true]
  omega

theorem toNat_valid (c : Char) : c.toNat < 0xd800 ∨ (0xdfff < c.toNat ∧ c.toNat < 0x110000) :=
  c.valid

theorem readChar_unit {n : ℕ} (h : n < 65536) (hhigh : isHigh n = false) (hlow : isLow n = false)
    (rest : List Char) : readChar (escapeUnit n ++ rest) = some (Char.ofNat n, rest) := by
  rw [escapeUnit, List.cons_append, List.cons_append, readChar, readEscaped, readUnit_hex4 h]
  simp [hhigh, hlow]

theorem readChar_pair {a b : ℕ} (ha : a < 65536) (hb : b < 65536) (hhigh : isHigh a = true)
    (hlow : isLow b = true) (rest : List Char) :
    readChar (escapeUnit a ++ escapeUnit b ++ rest) =
      some (Char.ofNat (0x10000 + ((a - 0xd800) * 0x400 + (b - 0xdc00))), rest) := by
  simp only [escapeUnit, List.cons_append, List.append_assoc]
  rw [readChar, readEscaped, readUnit_hex4 ha]
  simp only [hhigh, if_true, readUnit_hex4 hb, hlow]

/-- The two halves of a character make up the character. -/
theorem readChar_halves {n : ℕ} (h : 0x10000 ≤ n) (hn : n < 0x110000) (rest : List Char) :
    readChar (escapeUnit (0xd800 + (n - 0x10000) / 0x400) ++
      escapeUnit (0xdc00 + (n - 0x10000) % 0x400) ++ rest) = some (Char.ofNat n, rest) := by
  have hhigh : isHigh (0xd800 + (n - 0x10000) / 0x400) = true := by
    simp only [isHigh, Bool.and_eq_true, decide_eq_true_eq]
    omega
  have hlow : isLow (0xdc00 + (n - 0x10000) % 0x400) = true := by
    simp only [isLow, Bool.and_eq_true, decide_eq_true_eq]
    omega
  have hvalue : 0x10000 + ((0xd800 + (n - 0x10000) / 0x400 - 0xd800) * 0x400 +
      (0xdc00 + (n - 0x10000) % 0x400 - 0xdc00)) = n := by omega
  refine (readChar_pair (by omega) (by omega) hhigh hlow rest).trans ?_
  exact congrArg (fun m ↦ some (Char.ofNat m, rest)) hvalue

/-- An escaped character is read as the character. -/
theorem readChar_escapeChar (c : Char) (rest : List Char) :
    readChar (escapeChar c ++ rest) = some (c, rest) := by
  have hvalid := toNat_valid c
  unfold escapeChar
  simp only
  split_ifs with hquote hnewline hreturn htab hfeed hback hplain hsmall
  · rcases hquote with rfl | rfl <;> rfl
  · rw [hnewline]; rfl
  · rw [hreturn]; rfl
  · rw [htab]; rfl
  · have hc : c = Char.ofNat 12 := by rw [← hfeed, Char.ofNat_toNat]
    rw [hc]; rfl
  · have hc : c = Char.ofNat 8 := by rw [← hback, Char.ofNat_toNat]
    rw [hc]; rfl
  · rw [not_or] at hquote
    have hnext : ¬ (c.toNat < 32 ∨ c = '\\') := not_or.mpr ⟨by omega, hquote.2⟩
    rw [List.singleton_append, readChar.eq_3 _ _ (by simp [hquote.2]) (by simp [hquote.2]),
      if_neg hnext]
  · have hunit := readChar_unit hsmall (by simp [isHigh]; omega) (by simp [isLow]; omega) rest
    rwa [Char.ofNat_toNat] at hunit
  · have hpair := readChar_halves (n := c.toNat) (by omega) (by omega) rest
    rwa [Char.ofNat_toNat] at hpair

theorem escapeChar_ne_quote (c : Char) (rest : List Char) :
    ∃ first others, escapeChar c ++ rest = first :: others ∧ first ≠ '"' := by
  unfold escapeChar escapeUnit
  simp only
  split_ifs with hquote
  all_goals first
    | exact ⟨'\\', _, rfl, by decide⟩
    | exact ⟨c, rest, rfl, fun h ↦ hquote (Or.inl h)⟩

theorem readString_escaped (l : List Char) {n : ℕ} (h : l.length < n) (rest : List Char) :
    readString n (l.flatMap escapeChar ++ '"' :: rest) = some (l, rest) := by
  induction l generalizing n with
  | nil =>
      obtain ⟨m, rfl⟩ := Nat.exists_eq_succ_of_ne_zero (Nat.ne_of_gt h)
      rfl
  | cons c l ih =>
      obtain ⟨m, rfl⟩ := Nat.exists_eq_succ_of_ne_zero (Nat.ne_of_gt (Nat.zero_lt_of_lt h))
      have hread := readChar_escapeChar c (l.flatMap escapeChar ++ '"' :: rest)
      obtain ⟨first, others, hfirst, hne⟩ :=
        escapeChar_ne_quote c (l.flatMap escapeChar ++ '"' :: rest)
      rw [List.flatMap_cons, List.append_assoc]
      rw [hfirst] at hread ⊢
      rw [readString]
      · simp only [hread, ih (Nat.lt_of_succ_lt_succ h), Option.map_some]
      · rintro rest' heq
        exact hne (List.cons.inj heq).1

theorem length_le_flatMap_escapeChar (l : List Char) :
    l.length ≤ (l.flatMap escapeChar).length := by
  induction l with
  | nil => exact le_rfl
  | cons c l ih =>
      obtain ⟨first, others, hfirst, -⟩ := escapeChar_ne_quote c []
      rw [List.append_nil] at hfirst
      rw [List.flatMap_cons, List.length_append, hfirst]
      simp only [List.length_cons]
      omega

/-- What follows the opening quote is read up to the closing one. -/
theorem readString_quoted (s : String) (rest : List Char) :
    readString ((s.toList.flatMap escapeChar ++ '"' :: rest).length + 1)
      (s.toList.flatMap escapeChar ++ '"' :: rest) = some (s.toList, rest) := by
  have hlength := length_le_flatMap_escapeChar s.toList
  refine readString_escaped s.toList ?_ rest
  rw [List.length_append]
  omega

/-! ## Numbers -/

/-- The text goes on with a character of another kind, or ends. -/
def Stops (p : Char → Bool) (l : List Char) : Prop := ∀ c ∈ l.head?, p c = false

theorem stops_cons {p : Char → Bool} {c : Char} (h : p c = false) (l : List Char) :
    Stops p (c :: l) := by
  intro c' hc'
  obtain rfl := Option.some.inj hc'
  exact h

theorem Stops.mono {p q : Char → Bool} {l : List Char} (h : Stops p l)
    (hpq : ∀ c, q c = true → p c = true) : Stops q l := by
  intro c hc
  have hp := h c hc
  cases hq : q c with
  | false => rfl
  | true => rw [hpq c hq] at hp; exact absurd hp (by simp)

theorem splitDigits_append {digits : List Char} (hdigits : digits.all isAsciiDigit = true)
    (hrest : Stops isAsciiDigit rest) : splitDigits (digits ++ rest) = (digits, rest) := by
  have hall := List.all_eq_true.mp hdigits
  have hdrop : rest.dropWhile isAsciiDigit = rest := by
    cases rest with
    | nil => rfl
    | cons c rest => exact List.dropWhile_cons_of_neg (by simp [hrest c rfl])
  have htake : rest.takeWhile isAsciiDigit = [] := by
    cases rest with
    | nil => rfl
    | cons c rest => exact List.takeWhile_cons_of_neg (by simp [hrest c rfl])
  rw [splitDigits, List.span_eq_takeWhile_dropWhile, List.takeWhile_append_of_pos hall,
    List.dropWhile_append_of_pos hall, hdrop, htake, List.append_nil]

theorem readInt_append {digits : List Char} (hdigits : Digits digits)
    (hzero : digits = ['0'] ∨ digits.head? ≠ some '0') (hrest : Stops isAsciiDigit rest) :
    readInt (digits ++ rest) = some (digits, rest) := by
  rcases hzero with rfl | hzero
  · rfl
  · have hsplit := splitDigits_append hdigits.2 hrest
    rcases hcases : digits with _ | ⟨c, others⟩
    · exact absurd hcases hdigits.1
    · rw [hcases] at hsplit hzero
      rw [readInt]
      · simp only [hsplit]
      · rintro rest' heq
        exact hzero (congrArg List.head? (congrArg (List.take 1) heq))

theorem readFraction_digits {digits : List Char} (hdigits : Digits digits)
    (hrest : Stops isAsciiDigit rest) :
    readFraction ('.' :: digits ++ rest) = ('.' :: digits, rest) := by
  have hsplit := splitDigits_append hdigits.2 hrest
  rcases hcases : digits with _ | ⟨c, others⟩
  · exact absurd hcases hdigits.1
  · rw [hcases] at hsplit
    rw [List.cons_append, readFraction]
    simp only [hsplit]

theorem readFraction_nil (hrest : Stops (· == '.') rest) : readFraction rest = ([], rest) := by
  unfold readFraction
  split
  · next rest' => exact absurd (hrest '.' rfl) (by decide)
  · rfl

theorem readExponent_nil (hrest : Stops (fun c ↦ c == 'e' || c == 'E') rest) :
    readExponent rest = ([], rest) := by
  cases rest with
  | nil => rfl
  | cons c rest =>
      have hc := hrest c rfl
      simp only [Bool.or_eq_false_iff, beq_eq_false_iff_ne] at hc
      rw [readExponent, if_neg (not_or.mpr hc)]

theorem readSign_append {sign digits : List Char} (hsign : sign = [] ∨ sign = ['+'] ∨ sign = ['-'])
    (hdigits : Digits digits) : readSign (sign ++ digits ++ rest) = (sign, digits ++ rest) := by
  rcases hsign with rfl | rfl | rfl
  · obtain ⟨hne, hall⟩ := hdigits
    rcases hcases : digits with _ | ⟨c, others⟩
    · exact absurd hcases hne
    · rw [hcases, List.all_cons, Bool.and_eq_true] at hall
      rw [List.nil_append, List.cons_append, readSign]
      · rintro rest' heq
        rw [(List.cons.inj heq).1] at hall
        exact absurd hall.1 (by decide)
      · rintro rest' heq
        rw [(List.cons.inj heq).1] at hall
        exact absurd hall.1 (by decide)
  · rfl
  · rfl

theorem readExponent_digits {e : Char} {sign digits : List Char} (he : e = 'e' ∨ e = 'E')
    (hsign : sign = [] ∨ sign = ['+'] ∨ sign = ['-']) (hdigits : Digits digits)
    (hrest : Stops isAsciiDigit rest) :
    readExponent (e :: sign ++ digits ++ rest) = (e :: sign ++ digits, rest) := by
  have hsplit := splitDigits_append hdigits.2 hrest
  rcases hcases : digits with _ | ⟨c, others⟩
  · exact absurd hcases hdigits.1
  · rw [List.cons_append, List.cons_append, readExponent, if_pos he, ← hcases,
      readSign_append hsign hdigits]
    simp only [hsplit]
    rw [hcases]
    rfl

/-- The text of a number as the parts that the reader looks for. -/
structure NumberParts where
  sign : List Char
  int : List Char
  fraction : List Char
  exponent : List Char
  sign_ok : sign = [] ∨ sign = ['-']
  int_ok : Digits int
  zero_ok : int = ['0'] ∨ int.head? ≠ some '0'
  fraction_ok : fraction = [] ∨ ∃ ds, fraction = '.' :: ds ∧ Digits ds
  exponent_ok : exponent = [] ∨ ∃ e s ds, exponent = e :: s ++ ds ∧ (e = 'e' ∨ e = 'E') ∧
    (s = [] ∨ s = ['+'] ∨ s = ['-']) ∧ Digits ds

namespace NumberParts

def text (parts : NumberParts) : List Char :=
  parts.sign ++ parts.int ++ parts.fraction ++ parts.exponent

/-- What the parts are read as. -/
def value (float : List Char → PyFloat) (parts : NumberParts) : Except Fault Json :=
  if parts.fraction = [] ∧ parts.exponent = [] then
    if maxIntDigits < parts.int.length then .error .tooManyDigits
    else .ok (.num (if parts.sign = [] then (decimal parts.int : ℤ) else -(decimal parts.int : ℤ)))
  else .ok (.real (float parts.text))

variable (parts : NumberParts)

theorem isNumberChar_of_digit (c : Char) (h : isAsciiDigit c = true) : isNumberChar c = true := by
  simp [isNumberChar, h]

theorem stops_after_exponent (hrest : Stops isNumberChar rest) : Stops isAsciiDigit rest :=
  hrest.mono isNumberChar_of_digit

theorem stops_after_fraction (hrest : Stops isNumberChar rest) :
    Stops isAsciiDigit (parts.exponent ++ rest) := by
  rcases parts.exponent_ok with h | ⟨e, s, ds, h, he, -, -⟩
  · rw [h]
    exact stops_after_exponent hrest
  · rw [h]
    rcases he with rfl | rfl <;> exact stops_cons (by decide) _

theorem stops_after_int (hrest : Stops isNumberChar rest) :
    Stops isAsciiDigit (parts.fraction ++ (parts.exponent ++ rest)) := by
  rcases parts.fraction_ok with h | ⟨ds, h, -⟩
  · rw [h]
    exact stops_after_fraction parts hrest
  · rw [h]
    exact stops_cons (by decide) _

theorem readFraction_text (hrest : Stops isNumberChar rest) :
    readFraction (parts.fraction ++ (parts.exponent ++ rest)) =
      (parts.fraction, parts.exponent ++ rest) := by
  rcases parts.fraction_ok with h | ⟨ds, h, hds⟩
  · rw [h, List.nil_append]
    refine readFraction_nil ?_
    rcases parts.exponent_ok with h' | ⟨e, s, ds, h', he, -, -⟩
    · rw [h']
      exact hrest.mono fun c hc ↦ by rw [beq_iff_eq] at hc; rw [hc]; rfl
    · rw [h']
      rcases he with rfl | rfl <;> exact stops_cons (by decide) _
  · rw [h]
    exact readFraction_digits hds (stops_after_fraction parts hrest)

theorem readExponent_text (hrest : Stops isNumberChar rest) :
    readExponent (parts.exponent ++ rest) = (parts.exponent, rest) := by
  rcases parts.exponent_ok with h | ⟨e, s, ds, h, he, hs, hds⟩
  · rw [h]
    refine readExponent_nil (hrest.mono fun c hc ↦ ?_)
    simp only [Bool.or_eq_true, beq_iff_eq] at hc
    rcases hc with rfl | rfl <;> rfl
  · rw [h]
    exact readExponent_digits he hs hds (stops_after_exponent hrest)

theorem ne_minus_of_int : ∀ l, parts.int ++ rest ≠ '-' :: l := by
  intro l heq
  rcases hcases : parts.int with _ | ⟨c, others⟩
  · exact parts.int_ok.1 hcases
  · have hall := parts.int_ok.2
    rw [hcases] at heq hall
    rw [(List.cons.inj heq).1, List.all_cons, Bool.and_eq_true] at hall
    exact absurd hall.1 (by decide)

/-- The text of a number is read up to its end. -/
theorem readNumber_text (float : List Char → PyFloat) (hrest : Stops isNumberChar rest) :
    readNumber float (parts.text ++ rest) = (parts.value float).map fun v ↦ (v, rest) := by
  have hint := readInt_append parts.int_ok parts.zero_ok (stops_after_int parts hrest)
  have hminus : readMinus (parts.text ++ rest) =
      (parts.sign, parts.int ++ (parts.fraction ++ (parts.exponent ++ rest))) := by
    have htext : parts.text ++ rest =
        parts.sign ++ (parts.int ++ (parts.fraction ++ (parts.exponent ++ rest))) := by simp [text]
    rw [htext]
    rcases parts.sign_ok with h | h
    · rw [h, List.nil_append, readMinus]
      exact ne_minus_of_int parts
    · rw [h]
      rfl
  rw [readNumber, hminus]
  simp only [hint, readFraction_text parts hrest, readExponent_text parts hrest, value, text]
  split_ifs <;> rfl

end NumberParts

theorem digits_toDigits (n : ℕ) : Digits (Nat.toDigits 10 n) := by
  refine ⟨Nat.toDigits_ne_nil, List.all_eq_true.mpr fun c hc ↦ ?_⟩
  have hdigit : c.isDigit = true := Nat.isDigit_of_mem_toDigits (by decide) (by decide) hc
  simpa [Char.isDigit, isAsciiDigit, Char.le_def] using hdigit

theorem head_toDigits_ne {n : ℕ} (h : 0 < n) : (Nat.toDigits 10 n).head? ≠ some '0' := by
  induction n using Nat.strong_induction_on with
  | _ n ih =>
      by_cases hsmall : n < 10
      · rw [Nat.toDigits_of_lt_base hsmall]
        intro hzero
        have hn := Nat.digitChar_eq_zero.mp (Option.some.inj hzero)
        omega
      · have hshort := ih (n / 10) (by omega) (by omega)
        rw [Nat.toDigits_of_base_le (by decide) (by omega),
          List.head?_append_of_ne_nil _ Nat.toDigits_ne_nil]
        exact hshort

theorem noZero_toDigits (n : ℕ) :
    Nat.toDigits 10 n = ['0'] ∨ (Nat.toDigits 10 n).head? ≠ some '0' := by
  rcases Nat.eq_zero_or_pos n with rfl | h
  · exact Or.inl (Nat.toDigits_zero 10)
  · exact Or.inr (head_toDigits_ne h)

theorem sign_ok_of_int (n : ℤ) :
    (if n < 0 then ['-'] else []) = [] ∨ (if n < 0 then ['-'] else []) = ['-'] := by
  split_ifs <;> simp

/-- The parts of an integer. -/
def intParts (n : ℤ) : NumberParts where
  sign := if n < 0 then ['-'] else []
  int := Nat.toDigits 10 n.natAbs
  fraction := []
  exponent := []
  sign_ok := sign_ok_of_int n
  int_ok := digits_toDigits n.natAbs
  zero_ok := noZero_toDigits n.natAbs
  fraction_ok := Or.inl rfl
  exponent_ok := Or.inl rfl

theorem text_intParts (n : ℤ) : (intParts n).text = (toString n).toList := by
  cases n with
  | ofNat m =>
      have hsign : ¬ (Int.ofNat m < 0) := by simp
      change (if Int.ofNat m < 0 then ['-'] else []) ++ Nat.toDigits 10 m ++ [] ++ [] = _
      rw [if_neg hsign]
      change _ = m.repr.toList
      simp
  | negSucc m =>
      have hsign : Int.negSucc m < 0 := Int.negSucc_lt_zero m
      change (if Int.negSucc m < 0 then ['-'] else []) ++ Nat.toDigits 10 (m + 1) ++ [] ++ [] = _
      rw [if_pos hsign]
      change _ = ("-" ++ (m + 1).repr).toList
      simp

/-- The integer has no more digits than `int` converts. -/
def Short (n : ℤ) : Prop := (Nat.toDigits 10 n.natAbs).length ≤ maxIntDigits

theorem value_intParts (float : List Char → PyFloat) {n : ℤ} (h : Short n) :
    (intParts n).value float = .ok (.num n) := by
  have hdecimal : decimal (Nat.toDigits 10 n.natAbs) = n.natAbs :=
    Nat.ofDigitChars_toDigits (by decide) (by decide)
  have hlength : ¬ maxIntDigits < (intParts n).int.length := Nat.not_lt.mpr h
  rw [NumberParts.value, if_pos ⟨rfl, rfl⟩, if_neg hlength]
  change Except.ok (Json.num (if (if n < 0 then ['-'] else []) = [] then
    (decimal (Nat.toDigits 10 n.natAbs) : ℤ) else -(decimal (Nat.toDigits 10 n.natAbs) : ℤ))) = _
  rw [hdecimal]
  congr 2
  split_ifs with hneg hsign
  · simp at hsign
  · omega
  · omega
  · simp at *

/-- The text of the number is a JSON number or one of three words, which `float` gives back. -/
structure Reread (float : List Char → PyFloat) (x : PyFloat) : Prop where
  printed : (∃ parts : NumberParts, parts.text = x.repr.toList ∧
    ¬ (parts.fraction = [] ∧ parts.exponent = [])) ∨ x.repr ∈ ["NaN", "Infinity", "-Infinity"]
  value : float x.repr.toList = x

/-! ## Values -/

mutual

/-- A value that is read back: dictionaries have distinct keys, and numbers are not too long. -/
def Loadable (float : List Char → PyFloat) : Json → Prop
  | .null => True
  | .bool _ => True
  | .num n => Short n
  | .real x => Reread float x
  | .str _ => True
  | .arr items => LoadableItems float items
  | .obj members => (members.map Prod.fst).Nodup ∧ LoadableMembers float members

def LoadableItems (float : List Char → PyFloat) : List Json → Prop
  | [] => True
  | item :: items => Loadable float item ∧ LoadableItems float items

def LoadableMembers (float : List Char → PyFloat) : List (String × Json) → Prop
  | [] => True
  | (_, value) :: members => Loadable float value ∧ LoadableMembers float members

end

mutual

/-- The fuel that reading a value takes. -/
def weight : Json → ℕ
  | .arr items => 1 + weightItems items
  | .obj members => 1 + weightMembers members
  | _ => 1

def weightItems : List Json → ℕ
  | [] => 0
  | item :: items => 1 + weight item + weightItems items

def weightMembers : List (String × Json) → ℕ
  | [] => 0
  | (_, value) :: members => 1 + weight value + weightMembers members

end

theorem words_of_digit (float : List Char → PyFloat) {c : Char} (h : isAsciiDigit c = true)
    (l : List Char) : ((words float).find? fun word ↦ word.1.isPrefixOf (c :: l)) = none ∧
      ((words float).find? fun word ↦ word.1.isPrefixOf ('-' :: c :: l)) = none := by
  have hne : ∀ d ∈ ['n', 't', 'f', 'N', 'I', '-'], d ≠ c := by
    rintro d hd rfl
    revert h
    revert d
    decide
  simp only [List.forall_mem_cons] at hne
  obtain ⟨hn, ht, hf, hN, hI, hminus, -⟩ := hne
  constructor
  · simp [words, List.isPrefixOf, hn, ht, hf, hN, hI, hminus]
  · simp [words, List.isPrefixOf, hI]

/-- A value that starts with no bracket and no quote is a word or a number. -/
theorem readValue_plain (float : List Char → PyFloat) (n : ℕ) {c : Char}
    (h : c ∉ ['"', '[', '{']) (l : List Char) : readValue float (n + 1) (c :: l) =
      match (words float).find? fun word ↦ word.1.isPrefixOf (c :: l) with
      | some word => .ok (word.2, (c :: l).drop word.1.length)
      | none => readNumber float (c :: l) := by
  simp only [List.mem_cons, List.not_mem_nil, or_false, not_or] at h
  refine readValue.eq_5 float (c :: l) n ?_ ?_ ?_
  · rintro rest heq
    exact h.1 (List.cons.inj heq).1
  · rintro rest heq
    exact h.2.1 (List.cons.inj heq).1
  · rintro rest heq
    exact h.2.2 (List.cons.inj heq).1

theorem readValue_number (float : List Char → PyFloat) (n : ℕ) (parts : NumberParts)
    (hrest : Stops isNumberChar rest) : readValue float (n + 1) (parts.text ++ rest) =
      (parts.value float).map fun v ↦ (v, rest) := by
  rw [← parts.readNumber_text float hrest]
  rcases hcases : parts.int with _ | ⟨c, others⟩
  · exact absurd hcases parts.int_ok.1
  · have hdigit : isAsciiDigit c = true := by
      have hall := parts.int_ok.2
      rw [hcases, List.all_cons, Bool.and_eq_true] at hall
      exact hall.1
    have htext : parts.text ++ rest =
        parts.sign ++ (c :: (others ++ parts.fraction ++ parts.exponent ++ rest)) := by
      simp [NumberParts.text, hcases]
    rw [htext]
    rcases parts.sign_ok with h | h
    · have hplain : c ∉ ['"', '[', '{'] := by
        simp only [List.mem_cons, List.not_mem_nil, or_false]
        rintro (rfl | rfl | rfl) <;> exact absurd hdigit (by decide)
      rw [h, List.nil_append, readValue_plain float n hplain, (words_of_digit float hdigit _).1]
    · rw [h, List.singleton_append, readValue_plain float n (by decide),
        (words_of_digit float hdigit _).2]

theorem skipBlank_cons {c : Char} (h : isBlank c = false) (l : List Char) :
    skipBlank (c :: l) = c :: l := List.dropWhile_cons_of_neg (by simp [h])

theorem skipBlank_append {w : List Char} (h : Blank w) (l : List Char) :
    skipBlank (w ++ l) = skipBlank l := List.dropWhile_append_of_pos h

theorem blank_newline (depth : ℕ) : Blank (newline depth) := by
  refine List.forall_mem_cons.mpr ⟨rfl, fun c hc ↦ ?_⟩
  rw [List.eq_of_mem_replicate hc]
  rfl

theorem stops_newline (depth : ℕ) (l : List Char) : Stops isNumberChar (newline depth ++ l) :=
  stops_cons (by decide) _

/-- A value starts with no blank, and with no bracket that closes. -/
def Opens (l : List Char) : Prop := ∃ c rest, l = c :: rest ∧ isBlank c = false ∧ c ≠ ']'

theorem Opens.append {l : List Char} (h : Opens l) (rest : List Char) : Opens (l ++ rest) := by
  obtain ⟨c, l', rfl, hblank, hne⟩ := h
  exact ⟨c, l' ++ rest, rfl, hblank, hne⟩

theorem opens_text (parts : NumberParts) : Opens parts.text := by
  obtain ⟨hne, hall⟩ := parts.int_ok
  rcases hcases : parts.int with _ | ⟨c, others⟩
  · exact absurd hcases hne
  · rw [hcases, List.all_cons, Bool.and_eq_true] at hall
    rw [NumberParts.text, hcases]
    rcases parts.sign_ok with h | h
    · refine ⟨c, _, by rw [h]; rfl, ?_, ?_⟩
      · have hspace := (numberChar_spec (NumberParts.isNumberChar_of_digit c hall.1)).2
        cases hblank : isBlank c with
        | false => rfl
        | true => rw [isSpace_of_isBlank hblank] at hspace; exact absurd hspace (by simp)
      · rintro rfl
        exact absurd hall.1 (by decide)
    · exact ⟨'-', _, by rw [h]; rfl, rfl, by decide⟩

theorem opens_layout (depth : ℕ) {opening : Char} (h : isBlank opening = false)
    (hne : opening ≠ ']') (closing : Char) (parts : List (List Char)) :
    Opens (layout depth opening closing parts) := by
  unfold layout
  split_ifs
  · exact ⟨opening, _, rfl, h, hne⟩
  · exact ⟨opening, _, rfl, h, hne⟩

theorem opens_pretty (float : List Char → PyFloat) (value : Json) (h : Loadable float value)
    (depth : ℕ) : Opens (pretty value depth) := by
  cases value with
  | null => exact ⟨'n', _, rfl, rfl, by decide⟩
  | bool b =>
      cases b with
      | true => exact ⟨'t', _, rfl, rfl, by decide⟩
      | false => exact ⟨'f', _, rfl, rfl, by decide⟩
  | num n =>
      rw [pretty, ← text_intParts]
      exact opens_text _
  | real x =>
      rw [pretty]
      rcases h.printed with ⟨parts, htext, -⟩ | hword
      · rw [← htext]
        exact opens_text parts
      · simp only [List.mem_cons, List.not_mem_nil, or_false] at hword
        rcases hword with hword | hword | hword <;> rw [hword]
        · exact ⟨'N', _, rfl, rfl, by decide⟩
        · exact ⟨'I', _, rfl, rfl, by decide⟩
        · exact ⟨'-', _, rfl, rfl, by decide⟩
  | str s => exact ⟨'"', _, rfl, rfl, by decide⟩
  | arr items => exact opens_layout depth rfl (by decide) _ _
  | obj members => exact opens_layout depth rfl (by decide) _ _

/-- The words and the numbers. -/
theorem readValue_real {float : List Char → PyFloat} {x : PyFloat} (h : Reread float x) (n : ℕ)
    (hrest : Stops isNumberChar rest) :
    readValue float (n + 1) (x.repr.toList ++ rest) = .ok (.real x, rest) := by
  rcases h.printed with ⟨parts, htext, hreal⟩ | hword
  · have hvalue : parts.value float = .ok (.real x) := by
      rw [NumberParts.value, if_neg hreal, htext, h.value]
    rw [← htext, readValue_number float n parts hrest, hvalue]
    rfl
  · have hvalue := h.value
    simp only [List.mem_cons, List.not_mem_nil, or_false] at hword
    rcases hword with hword | hword | hword
    all_goals
      rw [hword] at hvalue ⊢
      conv_rhs => rw [← hvalue]
      rfl

theorem readValue_string (float : List Char → PyFloat) (n : ℕ) (s : String) (rest : List Char) :
    readValue float (n + 1) (quoted s ++ rest) = .ok (.str s, rest) := by
  have htext : quoted s ++ rest = '"' :: (s.toList.flatMap escapeChar ++ '"' :: rest) := by
    simp [quoted]
  rw [htext, readValue]
  simp only [readString_quoted, String.ofList_toList]

theorem dictOf_of_nodup {members : List (String × Json)} (h : (members.map Prod.fst).Nodup) :
    dictOf members = members := by
  have hassign : ∀ (d : List (String × Json)) (key : String) (value : Json),
      key ∉ d.map Prod.fst → Dict.assign key value d = d ++ [(key, value)] := by
    intro d key value hkey
    induction d with
    | nil => rfl
    | cons e d ih =>
        rw [List.map_cons, List.mem_cons, not_or] at hkey
        rw [Dict.assign, if_neg (Ne.symm hkey.1), ih hkey.2]
        rfl
  induction members using List.reverseRecOn with
  | nil => rfl
  | append_singleton members member ih =>
      rw [List.map_append, List.nodup_append] at h
      have hkey : member.1 ∉ (dictOf members).map Prod.fst := by
        rw [ih h.1]
        exact fun hmem ↦ h.2.2 _ hmem _ List.mem_cons_self rfl
      have hstep : dictOf (members ++ [member]) =
          Dict.assign member.1 member.2 (dictOf members) := by
        simp [dictOf, List.foldl_append]
      rw [hstep, hassign _ _ _ hkey, ih h.1]

/-- What comes after the last part of a list. -/
def closes (depth : ℕ) (closing : Char) (rest : List Char) : List Char :=
  newline depth ++ closing :: rest

theorem layout_append {depth : ℕ} {opening closing : Char} {parts : List (List Char)}
    (h : parts ≠ []) (rest : List Char) : layout depth opening closing parts ++ rest =
      opening :: (newline (depth + 1) ++
        (List.intercalate (',' :: newline (depth + 1)) parts ++ closes depth closing rest)) := by
  simp [layout, h, closes]

theorem stops_closes (depth : ℕ) (closing : Char) (rest : List Char) :
    Stops isNumberChar (closes depth closing rest) := stops_newline depth _

theorem skipBlank_closes (depth : ℕ) {closing : Char} (h : isBlank closing = false)
    (rest : List Char) : skipBlank (closes depth closing rest) = closing :: rest := by
  rw [closes, skipBlank_append (blank_newline depth), skipBlank_cons h]

/-- A list of parts starts as the first of them does. -/
theorem exists_intercalate (sep x : List Char) (xs : List (List Char)) :
    ∃ rest, List.intercalate sep (x :: xs) = x ++ rest := by
  cases xs with
  | nil => exact ⟨[], by simp⟩
  | cons y ys => exact ⟨_, by rw [List.intercalate_cons_cons, List.append_assoc]⟩

theorem readValue_array (float : List Char → PyFloat) (n depth : ℕ) {l : List Char} (h : Opens l) :
    readValue float (n + 1) ('[' :: (newline depth ++ l)) =
      (readItems float n l).map fun read ↦ (.arr read.1, read.2) := by
  obtain ⟨c, rest, rfl, hblank, hne⟩ := h
  rw [readValue, skipBlank_append (blank_newline depth), skipBlank_cons hblank]
  split
  · next heq => exact absurd (List.cons.inj heq).1 hne
  · rfl

theorem readValue_object (float : List Char → PyFloat) (n depth : ℕ) (l : List Char) :
    readValue float (n + 1) ('{' :: (newline depth ++ '"' :: l)) =
      (readMembers float n ('"' :: l)).map fun read ↦ (.obj (dictOf read.1), read.2) := by
  rw [readValue, skipBlank_append (blank_newline depth), skipBlank_cons rfl]
  rfl

/-- With this fuel everything that is light enough is read back. -/
structure ReadsBack (float : List Char → PyFloat) (n : ℕ) : Prop where
  value : ∀ (value : Json) (depth : ℕ) (rest : List Char), Loadable float value →
    weight value ≤ n → Stops isNumberChar rest →
      readValue float n (pretty value depth ++ rest) = .ok (value, rest)
  items : ∀ (item : Json) (items : List Json) (depth outer : ℕ) (rest : List Char),
    LoadableItems float (item :: items) → weightItems (item :: items) ≤ n →
      readItems float n (List.intercalate (',' :: newline depth)
        (prettyItems (item :: items) depth) ++ closes outer ']' rest) = .ok (item :: items, rest)
  members : ∀ (key : String) (value : Json) (members : List (String × Json)) (depth outer : ℕ)
    (rest : List Char), LoadableMembers float ((key, value) :: members) →
      weightMembers ((key, value) :: members) ≤ n →
        readMembers float n (List.intercalate (',' :: newline depth)
          (prettyMembers ((key, value) :: members) depth) ++ closes outer '}' rest) =
            .ok ((key, value) :: members, rest)

namespace ReadsBack

variable {n : ℕ} (h : ReadsBack float n)

include h

theorem readValue_succ {value : Json} (hvalue : Loadable float value) (hweight : weight value ≤ n + 1)
    (depth : ℕ) (hrest : Stops isNumberChar rest) :
    readValue float (n + 1) (pretty value depth ++ rest) = .ok (value, rest) := by
  cases value with
  | null => rfl
  | bool b => cases b <;> rfl
  | num k =>
      rw [pretty, ← text_intParts, readValue_number float n _ hrest, value_intParts float hvalue]
      rfl
  | real x => exact readValue_real hvalue n hrest
  | str s => exact readValue_string float n s rest
  | arr items =>
      cases items with
      | nil => rfl
      | cons item items =>
          rw [weight] at hweight
          have hread := h.items item items (depth + 1) depth rest hvalue (by omega)
          obtain ⟨others, hparts⟩ := exists_intercalate (',' :: newline (depth + 1))
            (pretty item (depth + 1)) (prettyItems items (depth + 1))
          have hopens := ((opens_pretty float item hvalue.1 (depth + 1)).append others).append
            (closes depth ']' rest)
          have hitems : Opens (List.intercalate (',' :: newline (depth + 1))
              (prettyItems (item :: items) (depth + 1)) ++ closes depth ']' rest) := by
            rw [prettyItems, hparts]
            exact hopens
          rw [pretty, layout_append (by simp [prettyItems]), readValue_array float n _ hitems, hread]
          rfl
  | obj members =>
      cases members with
      | nil => rfl
      | cons member members =>
          obtain ⟨key, value⟩ := member
          rw [weight] at hweight
          have hread := h.members key value members (depth + 1) depth rest hvalue.2 (by omega)
          obtain ⟨others, hparts⟩ := exists_intercalate (',' :: newline (depth + 1))
            (quoted key ++ ':' :: ' ' :: pretty value (depth + 1))
            (prettyMembers members (depth + 1))
          have htext : List.intercalate (',' :: newline (depth + 1))
              (prettyMembers ((key, value) :: members) (depth + 1)) ++ closes depth '}' rest =
              '"' :: (key.toList.flatMap escapeChar ++ ['"'] ++
                ':' :: ' ' :: pretty value (depth + 1) ++ others ++ closes depth '}' rest) := by
            rw [prettyMembers, hparts]
            simp [quoted]
          rw [pretty, layout_append (by simp [prettyMembers]), htext, readValue_object, ← htext,
            hread]
          rw [Except.map, dictOf_of_nodup hvalue.1]

theorem readItems_succ {item : Json} {items : List Json}
    (hitems : LoadableItems float (item :: items)) (hweight : weightItems (item :: items) ≤ n + 1)
    (depth outer : ℕ) (rest : List Char) :
    readItems float (n + 1) (List.intercalate (',' :: newline depth)
      (prettyItems (item :: items) depth) ++ closes outer ']' rest) = .ok (item :: items, rest) := by
  rw [weightItems] at hweight
  cases items with
  | nil =>
      have hread := h.value item depth (closes outer ']' rest) hitems.1 (by omega)
        (stops_closes outer ']' rest)
      rw [prettyItems, prettyItems, List.intercalate_singleton, readItems, hread]
      simp only [skipBlank_closes outer (show isBlank ']' = false from rfl)]
  | cons next items =>
      obtain ⟨hfirst, hothers⟩ := hitems
      have hread := h.items next items depth outer rest hothers (by omega)
      obtain ⟨c, others, hopens, hblank, -⟩ : Opens (List.intercalate (',' :: newline depth)
          (prettyItems (next :: items) depth) ++ closes outer ']' rest) := by
        obtain ⟨more, hparts⟩ := exists_intercalate (',' :: newline depth) (pretty next depth)
          (prettyItems items depth)
        rw [prettyItems, hparts]
        exact ((opens_pretty float next hothers.1 depth).append more).append _
      have hstep := h.value item depth (',' :: (newline depth ++ c :: others)) hfirst (by omega)
        (stops_cons (by decide) _)
      have htext : List.intercalate (',' :: newline depth)
          (prettyItems (item :: next :: items) depth) ++ closes outer ']' rest =
          pretty item depth ++ ',' :: (newline depth ++ c :: others) := by
        rw [prettyItems, prettyItems, List.intercalate_cons_cons, List.append_assoc,
          ← prettyItems, hopens]
        simp
      rw [htext, readItems, hstep]
      simp only [skipBlank_cons (show isBlank ',' = false from rfl),
        skipBlank_append (blank_newline depth), skipBlank_cons hblank]
      rw [← hopens, hread]
      rfl

/-- One member, up to what comes after its value. -/
theorem readMembers_step {key : String} {value : Json} (hvalue : Loadable float value)
    (hweight : weight value ≤ n) (depth : ℕ) {c : Char} (hc : isBlank c = false)
    {w l : List Char} (hw : Blank w) (hrest : Stops isNumberChar (w ++ c :: l)) :
    readMembers float (n + 1) (quoted key ++ ':' :: ' ' :: pretty value depth ++ (w ++ c :: l)) =
      match c :: l with
      | '}' :: rest => .ok ([(key, value)], rest)
      | ',' :: rest => (readMembers float n (skipBlank rest)).map fun read ↦
          ((key, value) :: read.1, read.2)
      | _ => .error .syntaxError := by
  obtain ⟨first, others, hopens, hblank, -⟩ :=
    (opens_pretty float value hvalue depth).append (w ++ c :: l)
  have hread := h.value value depth (w ++ c :: l) hvalue hweight hrest
  have htext : quoted key ++ ':' :: ' ' :: pretty value depth ++ (w ++ c :: l) =
      '"' :: (key.toList.flatMap escapeChar ++ '"' :: (':' :: ' ' :: (first :: others))) := by
    rw [← hopens]
    simp [quoted]
  have hskip : skipBlank (' ' :: first :: others) = first :: others := by
    rw [skipBlank, List.dropWhile_cons_of_pos rfl]
    exact skipBlank_cons hblank others
  rw [htext, readMembers]
  simp only [readString_quoted, skipBlank_cons (show isBlank ':' = false from rfl), hskip]
  rw [← hopens, hread, String.ofList_toList]
  change (match skipBlank (w ++ c :: l) with
    | '}' :: rest => .ok ([(key, value)], rest)
    | ',' :: rest => (readMembers float n (skipBlank rest)).map fun read ↦
        ((key, value) :: read.1, read.2)
    | _ => .error .syntaxError : Except Fault (List (String × Json) × List Char)) = _
  rw [skipBlank_append hw, skipBlank_cons hc]

theorem readMembers_succ {key : String} {value : Json} {members : List (String × Json)}
    (hmembers : LoadableMembers float ((key, value) :: members))
    (hweight : weightMembers ((key, value) :: members) ≤ n + 1) (depth outer : ℕ)
    (rest : List Char) : readMembers float (n + 1) (List.intercalate (',' :: newline depth)
      (prettyMembers ((key, value) :: members) depth) ++ closes outer '}' rest) =
        .ok ((key, value) :: members, rest) := by
  rw [weightMembers] at hweight
  obtain ⟨hfirst, hothers⟩ := hmembers
  cases members with
  | nil =>
      rw [prettyMembers, prettyMembers, List.intercalate_singleton, closes,
        h.readMembers_step hfirst (by omega) depth rfl (blank_newline outer)
          (stops_newline outer _)]
      rfl
  | cons next members =>
      obtain ⟨nextKey, nextValue⟩ := next
      have hread := h.members nextKey nextValue members depth outer rest hothers (by omega)
      obtain ⟨more, hparts⟩ := exists_intercalate (',' :: newline depth)
        (quoted nextKey ++ ':' :: ' ' :: pretty nextValue depth) (prettyMembers members depth)
      have hskip : skipBlank (newline depth ++ (List.intercalate (',' :: newline depth)
          (prettyMembers ((nextKey, nextValue) :: members) depth) ++ closes outer '}' rest)) =
          List.intercalate (',' :: newline depth)
            (prettyMembers ((nextKey, nextValue) :: members) depth) ++ closes outer '}' rest := by
        rw [skipBlank_append (blank_newline depth), prettyMembers, hparts]
        exact skipBlank_cons rfl _
      have htext : List.intercalate (',' :: newline depth)
          (prettyMembers ((key, value) :: (nextKey, nextValue) :: members) depth) ++
            closes outer '}' rest =
          quoted key ++ ':' :: ' ' :: pretty value depth ++ ([] ++ ',' :: (newline depth ++
            (List.intercalate (',' :: newline depth)
              (prettyMembers ((nextKey, nextValue) :: members) depth) ++
                closes outer '}' rest))) := by
        rw [prettyMembers, prettyMembers, List.intercalate_cons_cons, ← prettyMembers]
        simp
      rw [htext, h.readMembers_step hfirst (by omega) depth rfl (List.forall_mem_nil _)
        (stops_cons (by decide) _)]
      simp only [hskip, hread]
      rfl

end ReadsBack

/-- What opens has at least one character. -/
theorem weight_le_of_opens {value : Json} {l : List Char} (hweight : weight value = 1)
    (h : Opens l) : weight value + 1 ≤ 2 * l.length := by
  obtain ⟨c, rest, rfl, -, -⟩ := h
  rw [hweight, List.length_cons]
  omega

theorem weight_pos (value : Json) : 0 < weight value := by
  cases value <;> simp [weight]

/-- Everything is read back with enough fuel. -/
theorem readsBack (float : List Char → PyFloat) (n : ℕ) : ReadsBack float n := by
  induction n with
  | zero =>
      refine ⟨fun value _ _ _ h ↦ ?_, fun item items _ _ _ _ h ↦ ?_,
        fun key value members _ _ _ _ h ↦ ?_⟩
      · have hpos := weight_pos value
        omega
      · rw [weightItems] at h
        omega
      · rw [weightMembers] at h
        omega
  | succ n ih =>
      exact ⟨fun _ depth _ hvalue hweight hrest ↦ ih.readValue_succ hvalue hweight depth hrest,
        fun _ _ depth outer rest hitems hweight ↦ ih.readItems_succ hitems hweight depth outer rest,
        fun _ _ _ depth outer rest hmembers hweight ↦
          ih.readMembers_succ hmembers hweight depth outer rest⟩

theorem length_intercalate_ge (sep : List Char) (parts : List (List Char)) :
    (parts.map List.length).sum ≤ (List.intercalate sep parts).length := by
  induction parts with
  | nil => exact le_rfl
  | cons x parts ih =>
      cases parts with
      | nil => simp
      | cons y parts =>
          rw [List.map_cons, List.sum_cons, List.intercalate_cons_cons, List.length_append,
            List.length_append]
          omega

theorem length_layout_ge (depth : ℕ) (opening closing : Char) (parts : List (List Char)) :
    2 + (parts.map List.length).sum ≤ (layout depth opening closing parts).length := by
  have hparts := length_intercalate_ge (',' :: newline (depth + 1)) parts
  unfold layout
  split_ifs with h
  · rw [h]
    exact le_rfl
  · simp only [List.length_append, List.length_cons, List.length_nil]
    omega

mutual

/-- The text is long enough to pay for its own reading. -/
theorem weight_le (float : List Char → PyFloat) : ∀ (value : Json) (depth : ℕ),
    Loadable float value → weight value + 1 ≤ 2 * (pretty value depth).length
  | .null, depth, h => weight_le_of_opens rfl (opens_pretty float .null h depth)
  | .bool b, depth, h => weight_le_of_opens rfl (opens_pretty float (.bool b) h depth)
  | .num n, depth, h => weight_le_of_opens rfl (opens_pretty float (.num n) h depth)
  | .real x, depth, h => weight_le_of_opens rfl (opens_pretty float (.real x) h depth)
  | .str s, depth, h => weight_le_of_opens rfl (opens_pretty float (.str s) h depth)
  | .arr items, depth, h => by
      have hitems := weightItems_le float items (depth + 1) h
      have hlayout := length_layout_ge depth '[' ']' (prettyItems items (depth + 1))
      rw [pretty, weight]
      omega
  | .obj members, depth, h => by
      have hmembers := weightMembers_le float members (depth + 1) h.2
      have hlayout := length_layout_ge depth '{' '}' (prettyMembers members (depth + 1))
      rw [pretty, weight]
      omega

theorem weightItems_le (float : List Char → PyFloat) : ∀ (items : List Json) (depth : ℕ),
    LoadableItems float items →
      weightItems items ≤ 2 * ((prettyItems items depth).map List.length).sum
  | [], _, _ => le_rfl
  | item :: items, depth, h => by
      have hitem := weight_le float item depth h.1
      have hitems := weightItems_le float items depth h.2
      rw [weightItems, prettyItems, List.map_cons, List.sum_cons]
      omega

theorem weightMembers_le (float : List Char → PyFloat) :
    ∀ (members : List (String × Json)) (depth : ℕ), LoadableMembers float members →
      weightMembers members ≤ 2 * ((prettyMembers members depth).map List.length).sum
  | [], _, _ => le_rfl
  | (key, value) :: members, depth, h => by
      have hvalue := weight_le float value depth h.1
      have hmembers := weightMembers_le float members depth h.2
      rw [weightMembers, prettyMembers, List.map_cons, List.sum_cons, List.length_append,
        List.length_cons, List.length_cons]
      omega

end

/-- What is printed is read back, whatever blanks follow it. -/
theorem loads_pretty {value : Json} (h : Loadable float value) {w : List Char} (hw : Blank w) :
    loads float (pretty value 0 ++ w) = .ok value := by
  have hweight := weight_le float value 0 h
  have hread := (readsBack float (2 * (pretty value 0 ++ w).length + 2)).value value 0 w h
    (by rw [List.length_append]; omega)
  obtain ⟨c, rest, htext, hblank, -⟩ := (opens_pretty float value h 0).append w
  have hstops : Stops isNumberChar w := by
    cases w with
    | nil => exact fun c hc ↦ nomatch hc
    | cons c w =>
        refine stops_cons ?_ w
        have hspace := isSpace_of_isBlank (hw c List.mem_cons_self)
        cases hnumber : isNumberChar c with
        | false => rfl
        | true => rw [(numberChar_spec hnumber).2] at hspace; exact absurd hspace (by simp)
  have hskip : skipBlank (pretty value 0 ++ w) = pretty value 0 ++ w := by
    rw [htext, skipBlank_cons hblank]
  have hend : skipBlank w = [] := by
    rw [← List.append_nil w, skipBlank_append hw]
    rfl
  rw [loads, hskip, hread hstops]
  simp only [hend, if_true]

end Json
