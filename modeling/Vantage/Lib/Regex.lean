import Vantage.Lib.Text

/-!
# Backtracking search for patterns

Patterns repeat single characters only, so every way to match is found by
structural recursion. The ways are listed in the order in which a backtracking
engine tries them, and the first one is the match.
-/

inductive Regex where
  | eps
  /-- Between `least` and `most` characters of a class, as many as possible. -/
  | rep (p : Char → Bool) (least : ℕ) (most : Option ℕ)
  | seq (r s : Regex)
  | alt (r s : Regex)
  /-- The group that `m.group(1)` returns. -/
  | group (r : Regex)

namespace Regex

structure Outcome where
  text : List Char
  group : Option (List Char)
  rest : List Char
deriving DecidableEq, Repr

/-- All ways to match at the start of a text. -/
def outcomes : Regex → List Char → List Outcome
  | .eps, l => [⟨[], none, l⟩]
  | .rep p least most, l =>
      let run := l.takeWhile p
      let longest := most.elim run.length (min run.length)
      ((List.range (longest + 1)).reverse.filter (least ≤ ·)).map fun k ↦
        ⟨l.take k, none, l.drop k⟩
  | .seq r s, l =>
      (outcomes r l).flatMap fun o ↦ (outcomes s o.rest).map fun o' ↦
        ⟨o.text ++ o'.text, o'.group.or o.group, o'.rest⟩
  | .alt r s, l => outcomes r l ++ outcomes s l
  | .group r, l => (outcomes r l).map fun o ↦ { o with group := some o.text }

/-- `pattern.search(text)`. -/
def search (r : Regex) : List Char → Option Outcome
  | [] => (outcomes r []).head?
  | c :: l => (outcomes r (c :: l)).head?.or (search r l)

/-- The matches from here on; every round passes at least one character. -/
def findFrom (r : Regex) : ℕ → List Char → List Outcome
  | 0, _ => []
  | n + 1, l =>
      match (outcomes r l).find? (!·.text.isEmpty), l with
      | some o, _ => o :: findFrom r n o.rest
      | none, [] => []
      | none, _ :: l => findFrom r n l

/-- `pattern.finditer(text)`, for patterns that match no empty text. -/
def findAll (r : Regex) (l : List Char) : List Outcome := findFrom r (l.length + 1) l

/-- The text from here on without the matches. -/
def removeFrom (r : Regex) : ℕ → List Char → List Char
  | 0, l => l
  | n + 1, l =>
      match (outcomes r l).find? (!·.text.isEmpty), l with
      | some o, _ => removeFrom r n o.rest
      | none, [] => []
      | none, c :: l => c :: removeFrom r n l

/-- `pattern.sub("", text)`, for patterns that match no empty text. -/
def remove (r : Regex) (l : List Char) : List Char := removeFrom r (l.length + 1) l

/-! ## Writing patterns -/

def one (p : Char → Bool) : Regex := .rep p 1 (some 1)

def many (p : Char → Bool) : Regex := .rep p 0 none

def some1 (p : Char → Bool) : Regex := .rep p 1 none

def opt (r : Regex) : Regex := .alt r .eps

def lit (s : String) : Regex := s.toList.foldr (fun c r ↦ .seq (one (· == c)) r) .eps

/-- A letter under `re.IGNORECASE`, with the letters outside ASCII that fold to it. -/
def sameLetter (a c : Char) : Bool :=
  c.toLower == a.toLower || (a.toLower == 's' && c.toNat == 0x17f) ||
    (a.toLower == 'k' && c.toNat == 0x212a) ||
    (a.toLower == 'i' && (c.toNat == 0x130 || c.toNat == 0x131))

def litIgnoringCase (s : String) : Regex :=
  s.toList.foldr (fun c r ↦ .seq (one (sameLetter c)) r) .eps

def isOneOf (s : String) (c : Char) : Bool := s.toList.contains c

def isNoneOf (s : String) (c : Char) : Bool := !s.toList.contains c

def isUpperAlpha (c : Char) : Bool := 'A' ≤ c && c ≤ 'Z'

def isLowerAlpha (c : Char) : Bool := 'a' ≤ c && c ≤ 'z'

def isAlnum (c : Char) : Bool := isUpperAlpha c || isLowerAlpha c || Text.isAsciiDigit c

def ofSeq (l : List Regex) : Regex := l.foldr .seq .eps

/-! ## What a match is made of -/

variable {r s : Regex} {p : Char → Bool} {least : ℕ} {most : Option ℕ} {l : List Char} {c : Char}
  {o : Outcome}

/-- No match of the pattern holds the character. -/
def avoids (c : Char) : Regex → Bool
  | .eps => true
  | .rep p _ _ => !p c
  | .seq r s => avoids c r && avoids c s
  | .alt r s => avoids c r && avoids c s
  | .group r => avoids c r

theorem exists_mem_outcomes_of_search (h : search r l = some o) : ∃ l', o ∈ outcomes r l' := by
  induction l with
  | nil => exact ⟨[], List.mem_of_mem_head? h⟩
  | cons c l ih =>
      simp only [search, Option.or_eq_some_iff] at h
      rcases h with h | ⟨-, h⟩
      · exact ⟨c :: l, List.mem_of_mem_head? h⟩
      · exact ih h

theorem rep_spec (h : o ∈ outcomes (.rep p least most) l) :
    (∀ c ∈ o.text, p c = true) ∧ least ≤ o.text.length ∧ ∀ m ∈ most, o.text.length ≤ m := by
  simp only [outcomes, List.mem_map, List.mem_filter, List.mem_reverse, List.mem_range,
    decide_eq_true_eq] at h
  obtain ⟨k, ⟨hk, hleast⟩, rfl⟩ := h
  have hrun : k ≤ (l.takeWhile p).length ∧ ∀ m ∈ most, k ≤ m := by
    cases most with
    | none => exact ⟨Nat.lt_succ_iff.mp hk, by simp⟩
    | some m =>
        have hmin := le_min_iff.mp (Nat.lt_succ_iff.mp hk)
        exact ⟨hmin.1, by simpa using hmin.2⟩
  have hlength : (l.take k).length = k :=
    List.length_take_of_le (hrun.1.trans (List.takeWhile_prefix p).length_le)
  have htake : l.take k <+: l.takeWhile p := List.prefix_of_prefix_length_le (List.take_prefix k l)
    (List.takeWhile_prefix p) (hlength.trans_le hrun.1)
  refine ⟨fun c hc ↦ List.mem_takeWhile_imp (htake.subset hc), ?_, ?_⟩
  · exact hleast.trans_eq hlength.symm
  · exact fun m hm ↦ hlength.trans_le (hrun.2 m hm)

theorem mem_outcomes_seq : o ∈ outcomes (.seq r s) l ↔
    ∃ a ∈ outcomes r l, ∃ b ∈ outcomes s a.rest, ⟨a.text ++ b.text, b.group.or a.group, b.rest⟩ = o := by
  simp only [outcomes, List.mem_flatMap, List.mem_map]

theorem not_mem_text (h : r.avoids c = true) (ho : o ∈ outcomes r l) : c ∉ o.text := by
  induction r generalizing l o with
  | eps =>
      rw [List.mem_singleton.mp ho]
      exact List.not_mem_nil
  | rep p least most =>
      intro hc
      have hp := (rep_spec ho).1 c hc
      simp [avoids, hp] at h
  | seq r s ihr ihs =>
      simp only [avoids, Bool.and_eq_true] at h
      obtain ⟨a, ha, b, hb, rfl⟩ := mem_outcomes_seq.mp ho
      exact fun hc ↦ (List.mem_append.mp hc).elim (ihr h.1 ha) (ihs h.2 hb)
  | alt r s ihr ihs =>
      simp only [avoids, Bool.and_eq_true] at h
      rcases List.mem_append.mp ho with ho | ho
      · exact ihr h.1 ho
      · exact ihs h.2 ho
  | group r ih =>
      obtain ⟨a, ha, heq⟩ := List.mem_map.mp ho
      rw [← heq]
      have htext : c ∉ a.text := ih h ha
      exact htext

theorem text_of_mem_one (h : o ∈ outcomes (one (· == c)) l) : o.text = [c] := by
  obtain ⟨hall, hleast, hmost⟩ := rep_spec h
  obtain ⟨d, hd⟩ := List.length_eq_one_iff.mp (le_antisymm (hmost 1 rfl) hleast)
  rw [hd] at hall ⊢
  rw [beq_iff_eq.mp (hall d List.mem_cons_self)]

theorem text_of_mem_lit {text : String} (h : o ∈ outcomes (lit text) l) : o.text = text.toList := by
  unfold lit at h
  generalize text.toList = chars at h ⊢
  induction chars generalizing l o with
  | nil =>
      rw [List.mem_singleton.mp (show o ∈ [⟨[], none, l⟩] from h)]
  | cons c cs ih =>
      change o ∈ outcomes (.seq (one (· == c)) _) l at h
      obtain ⟨a, ha, b, hb, rfl⟩ := mem_outcomes_seq.mp h
      rw [text_of_mem_one ha, ih hb]
      rfl

/-- A match of a pattern that starts with a text starts with that text. -/
theorem prefix_of_mem_seq_lit {text : String} (h : o ∈ outcomes (.seq (lit text) r) l) :
    text.toList <+: o.text := by
  obtain ⟨a, ha, b, -, rfl⟩ := mem_outcomes_seq.mp h
  rw [text_of_mem_lit ha]
  exact List.prefix_append _ _

end Regex
