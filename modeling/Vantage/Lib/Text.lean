import Mathlib.Data.List.DropRight
import Mathlib.Data.List.Sort
import Mathlib.Data.List.TakeWhile
import Mathlib.Data.String.Basic
import Mathlib.Tactic
import Vantage.Lib.Grouping

/-!
# Text operations

Strings are sequences of code points. The operations follow the Python
`str` methods of the same names; letter case is that of ASCII.
-/

namespace Text

-- Above the instances that would decide such a statement by running through all characters.
instance (priority := high) decidableForallMem {p : Char → Prop} [DecidablePred p]
    (l : List Char) : Decidable (∀ c ∈ l, p c) := List.decidableBAll p l

/-- The code points on which `str.isspace` holds. -/
def isSpace (c : Char) : Bool :=
  let n := c.toNat
  (9 ≤ n && n ≤ 13) || (28 ≤ n && n ≤ 32) || n == 0x85 || n == 0xa0 || n == 0x1680 ||
    (0x2000 ≤ n && n ≤ 0x200a) || n == 0x2028 || n == 0x2029 || n == 0x202f ||
      n == 0x205f || n == 0x3000

def lower (s : String) : String := String.ofList (s.toList.map Char.toLower)

def upper (s : String) : String := String.ofList (s.toList.map Char.toUpper)

def startsWith (s p : String) : Bool := p.toList.isPrefixOf s.toList

def endsWith (s p : String) : Bool := p.toList.isSuffixOf s.toList

/-- The `in` operator between strings. -/
def contains (s sub : String) : Bool := decide (sub.toList <:+: s.toList)

/-- Remove the characters satisfying `p` from the end. -/
def rstripChars (p : Char → Bool) (l : List Char) : List Char := (l.reverse.dropWhile p).reverse

/-- Remove the characters satisfying `p` from both ends. -/
def stripChars (p : Char → Bool) (l : List Char) : List Char := rstripChars p (l.dropWhile p)

def strip (s : String) : String := String.ofList (stripChars isSpace s.toList)

def rstrip (s : String) (c : Char) : String := String.ofList (rstripChars (· == c) s.toList)

/-- The text before and after the first `c`; the second component is `none`
when there is no `c`. -/
def cut (c : Char) (l : List Char) : List Char × Option (List Char) :=
  match l.dropWhile (· != c) with
  | [] => (l, none)
  | _ :: tail => (l.takeWhile (· != c), some tail)

/-- The text after the last `c`, or the whole text when there is none. -/
def afterLast (c : Char) (l : List Char) : List Char := (l.reverse.takeWhile (· != c)).reverse

def isAsciiDigit (c : Char) : Bool := '0' ≤ c && c ≤ '9'

/-- The code points of the decimal digits zero. -/
def decimalZeros : List ℕ :=
  [48, 1632, 1776, 1984, 2406, 2534, 2662, 2790, 2918, 3046, 3174, 3302, 3430, 3558, 3664, 3792,
   3872, 4160, 4240, 6112, 6160, 6470, 6608, 6784, 6800, 6992, 7088, 7232, 7248, 42528, 43216,
   43264, 43472, 43504, 43600, 44016, 65296, 66720, 68912, 69734, 69872, 69942, 70096, 70384,
   70736, 70864, 71248, 71360, 71472, 71904, 72016, 72784, 73040, 73120, 92768, 92864, 93008,
   120782, 120792, 120802, 120812, 120822, 123200, 123632, 125264, 130032]

/-- `str.isdecimal` of a character, which is what `\d` matches. -/
def isDecimal (c : Char) : Bool := decimalZeros.any fun z ↦ z ≤ c.toNat && c.toNat ≤ z + 9

/-- The ranges of the digits that are not decimal, superscripts for one. -/
def otherDigits : List (ℕ × ℕ) :=
  [(178, 179), (185, 185), (4969, 4977), (6618, 6618), (8304, 8304), (8308, 8313), (8320, 8329),
   (9312, 9320), (9332, 9340), (9352, 9360), (9450, 9450), (9461, 9469), (9471, 9471), (10102,
   10110), (10112, 10120), (10122, 10130), (68160, 68163), (69216, 69224), (69714, 69722),
   (127232, 127242)]

/-- `str.isdigit` of a text, which holds of more than the digits that `int` reads. -/
def isDigitText (l : List Char) : Bool :=
  !l.isEmpty && l.all fun c ↦
    isDecimal c || otherDigits.any fun range ↦ range.1 ≤ c.toNat && c.toNat ≤ range.2

def digitValue (c : Char) : Option ℕ :=
  (decimalZeros.find? fun z ↦ z ≤ c.toNat && c.toNat ≤ z + 9).map fun z ↦ c.toNat - z

/-- The longest run of digits that `int` converts. -/
def maxIntDigits : ℕ := 4300

/-- `int(s)`: digits, single underscores between them, a sign and blank space around. -/
def parseInt (s : String) : Option ℤ :=
  let read := fun (l : List Char) ↦
    let parts := l.splitOn '_'
    if parts.any List.isEmpty then none
    else if maxIntDigits < parts.flatten.length then none
    else (parts.flatten.mapM digitValue).map fun ds ↦ (ds.foldl (fun n d ↦ 10 * n + d) 0 : ℕ)
  match stripChars isSpace s.toList with
  | '-' :: l => (read l).map fun n ↦ -(n : ℤ)
  | '+' :: l => (read l).map fun n ↦ (n : ℤ)
  | l => (read l).map fun n ↦ (n : ℤ)

/-- A non-empty run of ASCII digits. -/
def isDigits (l : List Char) : Bool := !l.isEmpty && l.all isAsciiDigit

/-- The value of a run of decimal digits. -/
def decimal (l : List Char) : ℕ := l.foldl (fun n c ↦ 10 * n + (c.toNat - 48)) 0

/-- The characters at which `str.splitlines` breaks. -/
def isLineBreak (c : Char) : Bool :=
  let n := c.toNat
  (10 ≤ n && n ≤ 13) || (28 ≤ n && n ≤ 30) || n == 0x85 || n == 0x2028 || n == 0x2029

/-- `splitlines`, with the start of the current line in reverse. -/
def splitLinesFrom (line : List Char) : List Char → List (List Char)
  | [] => if line = [] then [] else [line.reverse]
  | '\r' :: '\n' :: l => line.reverse :: splitLinesFrom [] l
  | c :: l => if isLineBreak c then line.reverse :: splitLinesFrom [] l
      else splitLinesFrom (c :: line) l

def splitLines (s : String) : List String := (splitLinesFrom [] s.toList).map String.ofList

/-- Everything but the four characters at either end is masked. -/
def redact (s : String) : String :=
  let l := s.toList
  if l.length ≤ 8 then String.ofList (List.replicate l.length '*')
  else String.ofList (l.take 4 ++ List.replicate (l.length - 8) '*' ++ l.drop (l.length - 4))

/-- `sep.join(l)`. -/
def join (sep : String) (l : List String) : String :=
  String.ofList (List.intercalate sep.toList (l.map String.toList))

/-- `sorted` on texts. -/
def sorted (l : List String) : List String := l.insertionSort (· ≤ ·)

/-- `sorted` on the set of some texts. -/
def sortedSet (l : List String) : List String := sorted l.dedup

/-- `s or d` for an optional text. -/
def orElse (s : Option String) (d : String) : String :=
  match s with
  | none => d
  | some t => if t = "" then d else t

/-- `repr` of a string; every code point from U+0020 on other than DEL counts as printable. -/
def pyRepr (s : String) : String :=
  let quote := if s.toList.contains '\'' && !s.toList.contains '"' then '"' else '\''
  let hex := fun n ↦ (if n < 16 then ['0'] else []) ++ Nat.toDigits 16 n
  let escape := fun (c : Char) ↦
    if c == quote || c == '\\' then ['\\', c]
    else if c == '\n' then ['\\', 'n']
    else if c == '\r' then ['\\', 'r']
    else if c == '\t' then ['\\', 't']
    else if c.toNat < 32 || c.toNat == 127 then '\\' :: 'x' :: hex c.toNat
    else [c]
  String.ofList (quote :: s.toList.flatMap escape ++ [quote])

theorem sortedSet_congr {l l' : List String} (h : ∀ s, s ∈ l ↔ s ∈ l') :
    sortedSet l = sortedSet l' := Grouping.sortedSet_congr h

theorem char_le_iff {c d : Char} : c ≤ d ↔ c.toNat ≤ d.toNat := Iff.rfl

@[simp] theorem toList_lower (s : String) : (lower s).toList = s.toList.map Char.toLower := by
  simp [lower]

@[simp] theorem toList_upper (s : String) : (upper s).toList = s.toList.map Char.toUpper := by
  simp [upper]

@[simp] theorem startsWith_iff {s p : String} : startsWith s p = true ↔ p.toList <+: s.toList := by
  simp [startsWith]

@[simp] theorem endsWith_iff {s p : String} : endsWith s p = true ↔ p.toList <:+ s.toList := by
  simp [endsWith]

@[simp] theorem contains_iff {s sub : String} : contains s sub = true ↔ sub.toList <:+: s.toList := by
  simp [contains]

theorem toUpper_toUpper (c : Char) : c.toUpper.toUpper = c.toUpper := by
  by_cases h : 'a'.val ≤ c.val ∧ c.val ≤ 'z'.val
  · have hup : c.toUpper.val = c.val + ('A'.val - 'a'.val) := by
      have hchar : c.toUpper = dite _ _ _ := rfl
      rw [hchar, dif_pos h]
    have hout : ¬ ('a'.val ≤ c.toUpper.val ∧ c.toUpper.val ≤ 'z'.val) := by
      have hA : 'A'.val = 65 := rfl
      have ha : 'a'.val = 97 := rfl
      have hz : 'z'.val = 122 := rfl
      rw [hup]
      simp only [hA, ha, hz, UInt32.le_iff_toNat_le, UInt32.toNat_add, UInt32.toNat_sub] at h ⊢
      simp only [UInt32.reduceToNat] at h ⊢
      omega
    exact dif_neg hout
  · have hid : c.toUpper = c := dif_neg h
    rw [hid, hid]

theorem toLower_toLower (c : Char) : c.toLower.toLower = c.toLower := by
  by_cases h : 'A'.val ≤ c.val ∧ c.val ≤ 'Z'.val
  · have hlow : c.toLower.val = c.val + ('a'.val - 'A'.val) := by
      have hchar : c.toLower = dite _ _ _ := rfl
      rw [hchar, dif_pos h]
    have hout : ¬ ('A'.val ≤ c.toLower.val ∧ c.toLower.val ≤ 'Z'.val) := by
      have hA : 'A'.val = 65 := rfl
      have ha : 'a'.val = 97 := rfl
      have hZ : 'Z'.val = 90 := rfl
      rw [hlow]
      simp only [hA, ha, hZ, UInt32.le_iff_toNat_le, UInt32.toNat_add, UInt32.toNat_sub] at h ⊢
      simp only [UInt32.reduceToNat] at h ⊢
      omega
    exact dif_neg hout
  · have hid : c.toLower = c := dif_neg h
    rw [hid, hid]

/-- Lowering changes letters only, and into letters. -/
theorem eq_of_toLower_eq {c d : Char} (h : c.toLower = d)
    (hd : ¬ ('a'.val ≤ d.val ∧ d.val ≤ 'z'.val)) : c = d := by
  by_cases hc : 'A'.val ≤ c.val ∧ c.val ≤ 'Z'.val
  · have hlow : c.toLower.val = c.val + ('a'.val - 'A'.val) := by
      have hchar : c.toLower = dite _ _ _ := rfl
      rw [hchar, dif_pos hc]
    have hA : 'A'.val = 65 := rfl
    have ha : 'a'.val = 97 := rfl
    have hZ : 'Z'.val = 90 := rfl
    have hz : 'z'.val = 122 := rfl
    rw [← h, hlow] at hd
    simp only [hA, ha, hZ, hz, UInt32.le_iff_toNat_le, UInt32.toNat_add, UInt32.toNat_sub] at hc hd
    simp only [UInt32.reduceToNat] at hc hd
    omega
  · have hid : c.toLower = c := dif_neg hc
    rw [← h, hid]

theorem prefix_of_prefix_toLower {p l : List Char} (h : p <+: l.map Char.toLower)
    (hp : ∀ d ∈ p, ¬ ('a'.val ≤ d.val ∧ d.val ≤ 'z'.val)) : p <+: l := by
  induction p generalizing l with
  | nil => exact List.nil_prefix
  | cons d p ih =>
      cases l with
      | nil => simp at h
      | cons c l =>
          rw [List.map_cons, List.cons_prefix_cons] at h
          rw [eq_of_toLower_eq h.1.symm (hp d List.mem_cons_self), List.cons_prefix_cons]
          exact ⟨rfl, ih h.2 fun d' hd' ↦ hp d' (List.mem_cons_of_mem d hd')⟩

theorem orElse_empty (s : Option String) : orElse s "" = s.getD "" := by
  cases s with
  | none => rfl
  | some t => exact (ite_eq_right_iff.mpr Eq.symm : (if t = "" then "" else t) = t)

@[simp] theorem lower_lower (s : String) : lower (lower s) = lower s := by
  apply String.toList_injective
  simp only [toList_lower, List.map_map]
  exact List.map_congr_left fun c _ ↦ toLower_toLower c

@[simp] theorem upper_upper (s : String) : upper (upper s) = upper s := by
  apply String.toList_injective
  simp only [toList_upper, List.map_map]
  exact List.map_congr_left fun c _ ↦ toUpper_toUpper c

theorem rstrip_rstrip (s : String) (c : Char) : rstrip (rstrip s c) c = rstrip s c := by
  simp only [rstrip, rstripChars, String.toList_ofList, List.reverse_reverse]
  rw [List.dropWhile_idempotent]

theorem lower_rstrip_lower (s : String) (c : Char) :
    lower (rstrip (lower s) c) = rstrip (lower s) c := by
  apply String.toList_injective
  rw [toList_lower]
  refine (List.map_congr_left fun d hd ↦ ?_).trans (List.map_id _)
  have hmem : d ∈ (lower s).toList := by
    simp only [rstrip, rstripChars, String.toList_ofList, List.mem_reverse] at hd
    exact List.mem_reverse.mp ((List.dropWhile_sublist _).mem hd)
  rw [toList_lower] at hmem
  obtain ⟨e, -, rfl⟩ := List.mem_map.mp hmem
  exact toLower_toLower e

theorem startsWith_self (s : String) : startsWith s s = true := by simp

/-- A text that is at most as long as its prefix is that prefix. -/
theorem eq_of_startsWith_of_length_le {s p : String} (h : startsWith s p = true)
    (hlen : s.toList.length ≤ p.toList.length) : s = p := by
  have hpre := startsWith_iff.mp h
  exact String.toList_injective (hpre.eq_of_length_le hlen).symm

theorem rstripChars_append {p : Char → Bool} {l z : List Char} (hz : ∀ c ∈ z, p c = true)
    (hl : ∀ c ∈ l.getLast?, p c = false) : rstripChars p (l ++ z) = l := by
  have hz' : ∀ c ∈ z.reverse, p c = true := fun c hc ↦ hz c (List.mem_reverse.mp hc)
  unfold rstripChars
  rw [List.reverse_append, List.dropWhile_append_of_pos hz']
  cases hrev : l.reverse with
  | nil => simpa using hrev.symm
  | cons c t =>
      have hlast : l.getLast? = some c := by
        rw [← List.head?_reverse, hrev]
        rfl
      have hc := hl c hlast
      rw [List.dropWhile_cons_of_neg (by simp [hc]), ← hrev, List.reverse_reverse]

theorem dropWhile_append {p : Char → Bool} {l z : List Char} (hz : ∀ c ∈ z, p c = true)
    (hl : ∀ c ∈ l.head?, p c = false) : (z ++ l).dropWhile p = l := by
  rw [List.dropWhile_append_of_pos hz]
  cases l with
  | nil => rfl
  | cons c t => exact List.dropWhile_cons_of_neg (by simp [hl c rfl])

theorem stripChars_eq_self {p : Char → Bool} {l : List Char} (hhead : ∀ c ∈ l.head?, p c = false)
    (hlast : ∀ c ∈ l.getLast?, p c = false) : stripChars p l = l := by
  have hdrop := dropWhile_append (z := []) (by simp) hhead
  have hrstrip := rstripChars_append (z := []) (by simp) hlast
  rw [List.nil_append] at hdrop
  rw [List.append_nil] at hrstrip
  rw [stripChars, hdrop, hrstrip]

theorem prefix_rstripChars (p : Char → Bool) (l : List Char) : rstripChars p l <+: l := by
  have h := List.dropWhile_suffix (l := l.reverse) p
  rwa [← List.reverse_prefix, List.reverse_reverse] at h

theorem infix_stripChars (p : Char → Bool) (l : List Char) : stripChars p l <:+: l :=
  (prefix_rstripChars p _).isInfix.trans (List.dropWhile_suffix p).isInfix

/-- Only characters that satisfy the test are removed at the end. -/
theorem exists_rstripChars (p : Char → Bool) (l : List Char) :
    ∃ tail, l = rstripChars p l ++ tail ∧ ∀ c ∈ tail, p c = true := by
  refine ⟨(l.reverse.takeWhile p).reverse, ?_, fun c hc ↦ ?_⟩
  · have hsplit := List.takeWhile_append_dropWhile (p := p) (l := l.reverse)
    have hback := congrArg List.reverse hsplit
    rw [List.reverse_append, List.reverse_reverse] at hback
    exact hback.symm
  · exact List.mem_takeWhile_imp (List.mem_reverse.mp hc)

/-- Stripping at the end stops at a character that fails the test. -/
theorem exists_rstripChars_append {p : Char → Bool} {c : Char} (hc : p c = false)
    (l r : List Char) : ∃ r', r' <+: r ∧ rstripChars p (l ++ c :: r) = l ++ c :: r' := by
  obtain ⟨tail, hsplit, htail⟩ := exists_rstripChars p (l ++ c :: r)
  rcases List.append_eq_append_iff.mp hsplit with ⟨m, hm, hrest⟩ | ⟨m, hm, hrest⟩
  · cases m with
    | nil =>
        have hin : c ∈ tail := by
          rw [List.nil_append] at hrest
          simp [← hrest]
        rw [htail c hin] at hc
        cases hc
    | cons d m =>
        obtain ⟨rfl, rfl⟩ := List.cons.inj hrest
        exact ⟨m, List.prefix_append m tail, hm⟩
  · have hin : c ∈ tail := by simp [hrest]
    rw [htail c hin] at hc
    cases hc

/-- Stripping at the start stops at a character that fails the test. -/
theorem exists_dropWhile_append {p : Char → Bool} {c : Char} (hc : p c = false) (z l : List Char) :
    ∃ z', z' <:+ z ∧ (z ++ c :: l).dropWhile p = z' ++ c :: l := by
  induction z with
  | nil => exact ⟨[], List.suffix_refl _, List.dropWhile_cons_of_neg (by simp [hc])⟩
  | cons d z ih =>
      by_cases hd : p d = true
      · obtain ⟨z', hz', heq⟩ := ih
        refine ⟨z', hz'.trans (List.suffix_cons d z), ?_⟩
        rw [List.cons_append, List.dropWhile_cons_of_pos hd, heq]
      · refine ⟨d :: z, List.suffix_refl _, ?_⟩
        rw [List.cons_append, List.dropWhile_cons_of_neg hd]

theorem exists_stripChars {p : Char → Bool} {c : Char} (hc : p c = false) (z l : List Char) :
    ∃ z' l', z' <:+ z ∧ l' <+: l ∧ stripChars p (z ++ c :: l) = z' ++ c :: l' := by
  obtain ⟨z', hz', hdrop⟩ := exists_dropWhile_append hc z l
  obtain ⟨l', hl', hstrip⟩ := exists_rstripChars_append hc z' l
  exact ⟨z', l', hz', hl', by rw [stripChars, hdrop, hstrip]⟩

/-- What stands between two characters that fail the test is kept. -/
theorem exists_stripChars_between {p : Char → Bool} {c d : Char} (hc : p c = false)
    (hd : p d = false) (z m l : List Char) : ∃ z' l', z' <:+ z ∧ l' <+: l ∧
      stripChars p (z ++ c :: (m ++ d :: l)) = z' ++ c :: (m ++ d :: l') := by
  obtain ⟨z', hz', hdrop⟩ := exists_dropWhile_append hc z (m ++ d :: l)
  obtain ⟨l', hl', hstrip⟩ := exists_rstripChars_append hd (z' ++ c :: m) l
  refine ⟨z', l', hz', hl', ?_⟩
  rw [stripChars, hdrop]
  simpa using hstrip

/-- Stripping removes what is around a text that is tight. -/
theorem stripChars_append {p : Char → Bool} {l z z' : List Char} (hz : ∀ c ∈ z, p c = true)
    (hz' : ∀ c ∈ z', p c = true) (hne : l ≠ []) (hhead : ∀ c ∈ l.head?, p c = false)
    (hlast : ∀ c ∈ l.getLast?, p c = false) : stripChars p (z ++ l ++ z') = l := by
  have hfront : ∀ c ∈ (l ++ z').head?, p c = false := by
    obtain ⟨d, rest, rfl⟩ := List.exists_cons_of_ne_nil hne
    exact hhead
  rw [stripChars, List.append_assoc, dropWhile_append hz hfront, rstripChars_append hz' hlast]

theorem length_stripChars_le (p : Char → Bool) (l : List Char) :
    (stripChars p l).length ≤ l.length := by
  unfold stripChars rstripChars
  rw [List.length_reverse]
  have hsuffix := (List.dropWhile_suffix (l := (l.dropWhile p).reverse) p).length_le
  have hdrop := (List.dropWhile_suffix (l := l) p).length_le
  rw [List.length_reverse] at hsuffix
  omega

theorem cut_eq_none {c : Char} {l : List Char} (h : c ∉ l) : cut c l = (l, none) := by
  have hdrop : l.dropWhile (· != c) = [] := by
    apply List.dropWhile_eq_nil_iff.mpr
    intro x hx
    simpa using fun hxc : x = c ↦ h (hxc ▸ hx)
  simp [cut, hdrop]

/-- A prefix without the separator is passed over. -/
theorem cut_append_left {c : Char} {l : List Char} (h : c ∉ l) (r : List Char) :
    cut c (l ++ r) = (l ++ (cut c r).1, (cut c r).2) := by
  have hall : ∀ x ∈ l, (x != c) = true := by
    intro x hx
    simpa using fun hxc : x = c ↦ h (hxc ▸ hx)
  unfold cut
  rw [List.dropWhile_append_of_pos hall]
  cases r.dropWhile (· != c) with
  | nil => rfl
  | cons d tail => simp [List.takeWhile_append_of_pos hall]

@[simp] theorem cut_nil (c : Char) : cut c [] = ([], none) := rfl

@[simp] theorem cut_cons_self (c : Char) (l : List Char) : cut c (c :: l) = ([], some l) := by
  simp [cut]

theorem cut_fst_sublist (c : Char) (l : List Char) : (cut c l).1 <+: l := by
  unfold cut
  cases l.dropWhile (· != c) with
  | nil => exact List.prefix_refl l
  | cons d tail => exact List.takeWhile_prefix _

theorem cut_snd_suffix {c : Char} {l r : List Char} (h : (cut c l).2 = some r) : r <:+ l := by
  unfold cut at h
  have hsuffix := List.dropWhile_suffix (l := l) (· != c)
  cases hdrop : l.dropWhile (· != c) with
  | nil => simp [hdrop] at h
  | cons d tail =>
      rw [hdrop] at h hsuffix
      obtain rfl := Option.some.inj h
      exact (List.suffix_cons d tail).trans hsuffix

theorem afterLast_suffix (c : Char) (l : List Char) : afterLast c l <:+ l := by
  have hpre := List.takeWhile_prefix (l := l.reverse) (· != c)
  simpa [afterLast] using List.reverse_suffix.mpr hpre

theorem cut_append {c : Char} {l : List Char} (h : c ∉ l) (tail : List Char) :
    cut c (l ++ c :: tail) = (l, some tail) := by
  simp [cut_append_left h]

theorem notMem_cut_fst (c : Char) (l : List Char) : c ∉ (cut c l).1 := by
  by_cases h : c ∈ l
  · obtain ⟨front, rest, rfl, hfront⟩ := List.eq_append_cons_of_mem h
    rwa [cut_append hfront]
  · rwa [cut_eq_none h]

theorem afterLast_eq_self {c : Char} {l : List Char} (h : c ∉ l) : afterLast c l = l := by
  have hall : l.reverse.takeWhile (· != c) = l.reverse := by
    apply List.takeWhile_eq_self_iff.mpr
    intro x hx
    simpa using fun hxc : x = c ↦ h (hxc ▸ List.mem_reverse.mp hx)
  simp [afterLast, hall]

theorem exists_splitOn_cons {c sep : Char} (h : c ≠ sep) (l : List Char) :
    ∃ part parts, (c :: l).splitOn sep = (c :: part) :: parts := by
  have hsplit : (c :: l).splitOn sep = ((l.splitOn sep).modifyHead (c :: ·)) := by
    simp [List.splitOn, List.splitOnP_cons_eq_if_modifyHead, h]
  obtain ⟨part, parts, hparts⟩ := List.exists_cons_of_ne_nil
    (List.splitOnP_ne_nil (· == sep) l)
  exact ⟨part, parts, by rw [hsplit, List.splitOn, hparts]; rfl⟩

/-! ## Parts of a text -/

/-- A part without the character `c` is on one side of each `c`. -/
theorem infix_of_infix_append_cons {v a b : List Char} {c : Char} (hc : c ∉ v)
    (h : v <:+: a ++ c :: b) : v <:+: a ∨ v <:+: b := by
  induction a with
  | nil =>
      rcases List.infix_cons_iff.mp h with h | h
      · rcases List.prefix_cons_iff.mp h with rfl | ⟨t, rfl, -⟩
        · exact Or.inl List.nil_infix
        · exact absurd List.mem_cons_self hc
      · exact Or.inr h
  | cons d a ih =>
      rcases List.infix_cons_iff.mp h with h | h
      · refine Or.inl (List.IsPrefix.isInfix ?_)
        rcases List.prefix_or_prefix_of_prefix h (List.prefix_append (d :: a) (c :: b)) with h' | ⟨t, rfl⟩
        · exact h'
        · cases t with
          | nil => simp
          | cons e t =>
              have he := List.cons_prefix_cons.mp ((List.prefix_append_right_inj (d :: a)).mp h)
              exact absurd (by simp [he.1]) hc
      · rcases ih h with h | h
        · exact Or.inl (h.trans (List.infix_cons List.infix_rfl))
        · exact Or.inr h

theorem infix_of_infix_replicate_append {v b : List Char} {c : Char} (hc : c ∉ v) (n : ℕ)
    (h : v <:+: List.replicate n c ++ b) : v <:+: b := by
  induction n with
  | zero => exact h
  | succ n ih =>
      have h' : v <:+: [] ++ c :: (List.replicate n c ++ b) := h
      rcases infix_of_infix_append_cons hc h' with h | h
      · rw [List.infix_nil.mp h]
        exact List.nil_infix
      · exact ih h

/-- A masked text holds no part of more than four characters other than the mask. -/
theorem not_infix_redact {v : List Char} (hstar : '*' ∉ v) (hlength : 4 < v.length) (s : String) :
    ¬ v <:+: (redact s).toList := by
  intro h
  have hshort : ∀ {l : List Char}, l.length ≤ 4 → ¬ v <:+: l := fun hl hv ↦
    absurd hv.length_le (by omega)
  unfold redact at h
  dsimp only at h
  split_ifs at h with hlong
  · rw [String.toList_ofList, ← List.append_nil (List.replicate _ _)] at h
    exact hshort (by simp) (infix_of_infix_replicate_append hstar _ h)
  · obtain ⟨n, hn⟩ : ∃ n, s.toList.length - 8 = n + 1 := ⟨s.toList.length - 9, by omega⟩
    rw [String.toList_ofList, hn, List.replicate_succ, List.append_assoc, List.cons_append] at h
    rcases infix_of_infix_append_cons hstar h with h | h
    · exact hshort (by simp) h
    · exact hshort (by simp; omega) (infix_of_infix_replicate_append hstar n h)

end Text
