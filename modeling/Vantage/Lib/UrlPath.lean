import Vantage.Lib.Url

/-!
# Normalising the path of a URL

Dot segments are removed by the buffer algorithm of RFC 3986, section 5.2.4;
percent escapes of unreserved characters are decoded as in section 6.2.2.2.
Neither step makes a path longer, and a path that starts at the root keeps
doing so.
-/

namespace Url

open Text

/-! ## Dot segments -/

/-- Remove the last segment and the slash before it, if any. -/
def dropLastSegment (out : List Char) : List Char :=
  out.take (out.length - (afterLast '/' out).length - 1)

/-- One round on the input and the output buffer. -/
def removeDotStep (input out : List Char) : List Char × List Char :=
  match input with
  | [] => ([], out)
  | '.' :: '.' :: '/' :: rest => (rest, out)
  | '.' :: '/' :: rest => (rest, out)
  | '/' :: '.' :: '/' :: rest => ('/' :: rest, out)
  | ['/', '.'] => (['/'], out)
  | '/' :: '.' :: '.' :: '/' :: rest => ('/' :: rest, dropLastSegment out)
  | ['/', '.', '.'] => (['/'], dropLastSegment out)
  | ['.'] => ([], out)
  | ['.', '.'] => ([], out)
  | c :: rest => (rest.dropWhile (· != '/'), out ++ c :: rest.takeWhile (· != '/'))

def removeDotRounds : ℕ → List Char → List Char → List Char
  | 0, _, out => out
  | n + 1, input, out => removeDotRounds n (removeDotStep input out).1 (removeDotStep input out).2

/-- Every round consumes a character, so as many rounds as characters suffice. -/
def removeDotSegments (path : List Char) : List Char := removeDotRounds path.length path []

example : removeDotSegments "/a/b/c/./../../g".toList = "/a/g".toList := by decide

/-- Empty, or starting with a slash. -/
def Rooted (l : List Char) : Prop := l = [] ∨ l.head? = some '/'

theorem Rooted.of_prefix {l l' : List Char} (h : Rooted l) (hpre : l' <+: l) : Rooted l' := by
  obtain ⟨t, rfl⟩ := hpre
  cases l' with
  | nil => exact Or.inl rfl
  | cons c l' => simpa [Rooted] using h

theorem rooted_dropWhile (l : List Char) : Rooted (l.dropWhile (· != '/')) := by
  induction l with
  | nil => exact Or.inl rfl
  | cons c l ih =>
      by_cases hc : c = '/'
      · simp [Rooted, hc]
      · simpa [hc] using ih

theorem dropLastSegment_isPrefixOf (out : List Char) : dropLastSegment out <+: out :=
  List.take_prefix _ _

/-- What one round does to the two buffers. -/
structure StepSpec (input out input' out' : List Char) : Prop where
  consumes : input = [] ∨ input'.length < input.length
  length_le : input'.length + out'.length ≤ input.length + out.length
  mem : ∀ c, c ∈ input' ∨ c ∈ out' → c ∈ input ∨ c ∈ out
  rooted : Rooted input → Rooted out → Rooted input' ∧ Rooted out'

theorem removeDotStep_spec (input out : List Char) :
    StepSpec input out (removeDotStep input out).1 (removeDotStep input out).2 := by
  have hlen := (dropLastSegment_isPrefixOf out).length_le
  have hmem : ∀ c ∈ dropLastSegment out, c ∈ out := fun c ↦ (dropLastSegment_isPrefixOf out).mem
  have hroot : Rooted out → Rooted (dropLastSegment out) :=
    fun h ↦ h.of_prefix (dropLastSegment_isPrefixOf out)
  unfold removeDotStep
  split
  case h_1 => exact ⟨Or.inl rfl, le_rfl, fun c hc ↦ hc, fun hin hout ↦ ⟨hin, hout⟩⟩
  case h_10 c rest _ _ _ _ _ _ _ _ =>
    have hsplit := List.takeWhile_append_dropWhile (p := (· != '/')) (l := rest)
    have hsum : rest.length =
        (rest.takeWhile (· != '/')).length + (rest.dropWhile (· != '/')).length := by
      rw [← List.length_append, hsplit]
    refine ⟨Or.inr ?_, ?_, ?_, ?_⟩
    · simp only [List.length_cons]
      omega
    · simp only [List.length_append, List.length_cons]
      omega
    · intro d hd
      rw [← hsplit]
      simp only [List.mem_append, List.mem_cons] at hd ⊢
      tauto
    · intro hin hout
      refine ⟨rooted_dropWhile rest, ?_⟩
      rcases hout with rfl | hout
      · simpa [Rooted] using hin
      · right
        simp [hout]
  all_goals
    refine ⟨Or.inr ?_, ?_, ?_, ?_⟩
    · simp only [List.length_cons, List.length_nil]
      omega
    · simp only [List.length_cons, List.length_nil]
      omega
    · simp only [List.mem_cons, List.not_mem_nil]
      grind
    · simp [Rooted]
      try simpa [Rooted] using hroot

theorem removeDotRounds_nil (n : ℕ) (out : List Char) : removeDotRounds n [] out = out := by
  induction n with
  | zero => rfl
  | succ n ih => exact ih

/-- More rounds than characters change nothing. -/
theorem removeDotRounds_eq_of_le {n m : ℕ} {input : List Char} (out : List Char)
    (hn : input.length ≤ n) (hm : input.length ≤ m) :
    removeDotRounds n input out = removeDotRounds m input out := by
  induction n generalizing m input out with
  | zero =>
      obtain rfl := List.eq_nil_of_length_eq_zero (Nat.le_zero.mp hn)
      rw [removeDotRounds_nil, removeDotRounds_nil]
  | succ n ih =>
      rcases (removeDotStep_spec input out).consumes with rfl | hlt
      · rw [removeDotRounds_nil, removeDotRounds_nil]
      · cases m with
        | zero => omega
        | succ m => exact ih _ (by omega) (by omega)

theorem length_removeDotRounds_le (n : ℕ) (input out : List Char) :
    (removeDotRounds n input out).length ≤ input.length + out.length := by
  induction n generalizing input out with
  | zero => simp [removeDotRounds]
  | succ n ih => exact (ih _ _).trans (removeDotStep_spec input out).length_le

theorem mem_removeDotRounds {n : ℕ} {input out : List Char} {c : Char}
    (h : c ∈ removeDotRounds n input out) : c ∈ input ∨ c ∈ out := by
  induction n generalizing input out with
  | zero => exact Or.inr h
  | succ n ih => exact (removeDotStep_spec input out).mem c (ih h)

theorem rooted_removeDotRounds {n : ℕ} {input out : List Char} (hin : Rooted input)
    (hout : Rooted out) : Rooted (removeDotRounds n input out) := by
  induction n generalizing input out with
  | zero => exact hout
  | succ n ih =>
      obtain ⟨hin', hout'⟩ := (removeDotStep_spec input out).rooted hin hout
      exact ih hin' hout'

theorem length_removeDotSegments_le (path : List Char) :
    (removeDotSegments path).length ≤ path.length := by
  simpa [removeDotSegments] using length_removeDotRounds_le path.length path []

theorem mem_removeDotSegments {path : List Char} {c : Char} (h : c ∈ removeDotSegments path) :
    c ∈ path := by
  simpa using mem_removeDotRounds h

theorem rooted_removeDotSegments {path : List Char} (h : Rooted path) :
    Rooted (removeDotSegments path) :=
  rooted_removeDotRounds h (Or.inl rfl)

/-! ## Percent escapes -/

def isUnreserved (c : Char) : Bool :=
  isAsciiAlpha c || isAsciiDigit c || c == '-' || c == '.' || c == '_' || c == '~'

/-- The unreserved character that two hexadecimal digits stand for. -/
def unreservedOfHex (a b : Char) : Option Char := do
  let hi ← IpAddress.hexValue a
  let lo ← IpAddress.hexValue b
  let c := Char.ofNat (16 * hi + lo)
  if isUnreserved c then some c else none

def decodeUnreserved : List Char → List Char
  | '%' :: a :: b :: rest =>
      match unreservedOfHex a b with
      | some c => c :: decodeUnreserved rest
      | none => '%' :: decodeUnreserved (a :: b :: rest)
  | c :: rest => c :: decodeUnreserved rest
  | [] => []

theorem isUnreserved_of_unreservedOfHex {a b c : Char} (h : unreservedOfHex a b = some c) :
    isUnreserved c = true := by
  unfold unreservedOfHex at h
  cases ha : IpAddress.hexValue a with
  | none => simp [ha] at h
  | some hi =>
      cases hb : IpAddress.hexValue b with
      | none => simp [ha, hb] at h
      | some lo =>
          simp only [ha, hb, Option.bind_eq_bind, Option.bind_some] at h
          split_ifs at h with hc
          obtain rfl := Option.some.inj h
          exact hc

theorem length_decodeUnreserved_le (l : List Char) :
    (decodeUnreserved l).length ≤ l.length := by
  fun_induction decodeUnreserved l with
  | case1 a b rest c _ ih => simp only [List.length_cons]; omega
  | case2 a b rest _ ih => simpa using ih
  | case3 c rest _ ih => simpa using ih
  | case4 => simp

theorem mem_decodeUnreserved {l : List Char} {c : Char} (h : c ∈ decodeUnreserved l) :
    c ∈ l ∨ isUnreserved c = true := by
  fun_induction decodeUnreserved l with
  | case1 a b rest d hd ih =>
      rcases List.mem_cons.mp h with rfl | h
      · exact Or.inr (isUnreserved_of_unreservedOfHex hd)
      · exact (ih h).imp_left fun hc ↦ by simp [hc]
  | case2 a b rest _ ih =>
      rcases List.mem_cons.mp h with rfl | h
      · simp
      · exact (ih h).imp_left fun hc ↦ List.mem_cons_of_mem _ hc
  | case3 d rest _ ih =>
      rcases List.mem_cons.mp h with rfl | h
      · simp
      · exact (ih h).imp_left fun hc ↦ List.mem_cons_of_mem _ hc
  | case4 => simp at h

theorem rooted_decodeUnreserved {l : List Char} (h : Rooted l) : Rooted (decodeUnreserved l) := by
  rcases h with rfl | h
  · exact Or.inl rfl
  · obtain ⟨t, rfl⟩ := List.head?_eq_some_iff.mp h
    exact Or.inr (by simp [decodeUnreserved])

/-! ## The normal form of an absolute URL -/

/-- Dot segments removed, then unreserved characters decoded. -/
def normalPath (path : List Char) : List Char := decodeUnreserved (removeDotSegments path)

theorem length_normalPath_le (path : List Char) : (normalPath path).length ≤ path.length :=
  (length_decodeUnreserved_le _).trans (length_removeDotSegments_le path)

theorem rooted_normalPath {path : List Char} (h : Rooted path) : Rooted (normalPath path) :=
  rooted_decodeUnreserved (rooted_removeDotSegments h)

theorem isUnreserved_spec {c : Char} (h : isUnreserved c = true) :
    c ≠ '?' ∧ c ≠ '#' ∧ isUnsafe c = false := by
  have hne : ∀ d : Char, isUnreserved d = false → c ≠ d := by
    rintro d hd rfl
    simp [h] at hd
  refine ⟨hne _ (by decide), hne _ (by decide), ?_⟩
  simp only [isUnsafe, Bool.or_eq_false_iff, beq_eq_false_iff_ne]
  exact ⟨⟨hne _ (by decide), hne _ (by decide)⟩, hne _ (by decide)⟩

namespace Absolute

theorem rooted_path (u : Absolute) : Rooted u.path.toList :=
  u.path_start.imp_left fun h ↦ by simp [h]

/-- The URL with its path in normal form. -/
def normalize (u : Absolute) : Absolute :=
  { u with
    path := String.ofList (normalPath u.path.toList)
    path_start := by
      rcases rooted_normalPath u.rooted_path with h | h
      · exact Or.inl (by simp [h])
      · exact Or.inr (by simpa using h)
    path_ok := by
      intro c hc
      rw [String.toList_ofList] at hc
      rcases mem_decodeUnreserved hc with hc | hc
      · exact u.path_ok c (mem_removeDotSegments hc)
      · exact isUnreserved_spec hc }

end Absolute

end Url
