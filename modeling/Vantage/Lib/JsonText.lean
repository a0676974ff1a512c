import Vantage.Lib.Text

/-!
# The grammar of JSON texts

The texts that a reader of JSON accepts, by the productions of the grammar. A
scanner that counts the open brackets outside of strings comes back to its
first state at the end of a value, and inside of an object not before: no
object text is the beginning of another one.
-/

namespace JsonText

open Text

def isBlank (c : Char) : Bool := c == ' ' || c == '\t' || c == '\n' || c == '\r'

def Blank (w : List Char) : Prop := ∀ c ∈ w, isBlank c = true

def isHex (c : Char) : Bool :=
  isAsciiDigit c || ('a' ≤ c && c ≤ 'f') || ('A' ≤ c && c ≤ 'F')

/-- The text between the quotes of a string. -/
inductive Characters : List Char → Prop
  | nil : Characters []
  | plain {c : Char} {t : List Char} (hc : 32 ≤ c.toNat ∧ c ≠ '"' ∧ c ≠ '\\')
      (ht : Characters t) : Characters (c :: t)
  | escape {c : Char} {t : List Char} (hc : c ∈ "\"\\/bfnrt".toList) (ht : Characters t) :
      Characters ('\\' :: c :: t)
  | unicode {a b c d : Char} {t : List Char} (hhex : [a, b, c, d].all isHex = true)
      (ht : Characters t) : Characters ('\\' :: 'u' :: a :: b :: c :: d :: t)

def Digits (t : List Char) : Prop := t ≠ [] ∧ t.all isAsciiDigit = true

/-- A sign, an integer without leading zeros, a fraction and an exponent. -/
def IsNumber (t : List Char) : Prop :=
  ∃ sign int frac exp, t = sign ++ int ++ frac ++ exp ∧ (sign = [] ∨ sign = ['-']) ∧
    Digits int ∧ (int = ['0'] ∨ int.head? ≠ some '0') ∧
    (frac = [] ∨ ∃ ds, frac = '.' :: ds ∧ Digits ds) ∧
    (exp = [] ∨ ∃ e s ds, exp = e :: s ++ ds ∧ (e = 'e' ∨ e = 'E') ∧
      (s = [] ∨ s = ['+'] ∨ s = ['-']) ∧ Digits ds)

inductive Part where
  | value
  | element
  | elements
  | member
  | members

inductive Derives : Part → List Char → Prop
  | null : Derives .value "null".toList
  | true : Derives .value "true".toList
  | false : Derives .value "false".toList
  | number {t : List Char} (h : IsNumber t) : Derives .value t
  | string {t : List Char} (h : Characters t) : Derives .value ('"' :: t ++ ['"'])
  | emptyArray {w : List Char} (hw : Blank w) : Derives .value ('[' :: w ++ [']'])
  | array {t : List Char} (h : Derives .elements t) : Derives .value ('[' :: t ++ [']'])
  | emptyObject {w : List Char} (hw : Blank w) : Derives .value ('{' :: w ++ ['}'])
  | object {t : List Char} (h : Derives .members t) : Derives .value ('{' :: t ++ ['}'])
  | element {w t w' : List Char} (hw : Blank w) (h : Derives .value t) (hw' : Blank w') :
      Derives .element (w ++ t ++ w')
  | lastElement {t : List Char} (h : Derives .element t) : Derives .elements t
  | elements {t u : List Char} (h : Derives .element t) (hrest : Derives .elements u) :
      Derives .elements (t ++ ',' :: u)
  | member {w k w' t : List Char} (hw : Blank w) (hk : Characters k) (hw' : Blank w')
      (h : Derives .element t) : Derives .member (w ++ '"' :: k ++ '"' :: w' ++ ':' :: t)
  | lastMember {t : List Char} (h : Derives .member t) : Derives .members t
  | members {t u : List Char} (h : Derives .member t) (hrest : Derives .members u) :
      Derives .members (t ++ ',' :: u)

/-- A JSON text: one value with blank space around it. -/
def IsText (t : List Char) : Prop := Derives .element t

/-! ## The scanner -/

inductive Mode where
  | plain
  | string
  | escape
deriving DecidableEq

structure State where
  depth : ℕ
  mode : Mode
deriving DecidableEq

def step (s : State) (c : Char) : State :=
  match s.mode with
  | .plain =>
      if c = '"' then { s with mode := .string }
      else if c = '{' ∨ c = '[' then { s with depth := s.depth + 1 }
      else if c = '}' ∨ c = ']' then { s with depth := s.depth - 1 }
      else s
  | .string =>
      if c = '\\' then { s with mode := .escape }
      else if c = '"' then { s with mode := .plain }
      else s
  | .escape => { s with mode := .string }

def run (s : State) (t : List Char) : State := t.foldl step s

/-- No character takes the scanner below a depth. -/
def Above (d : ℕ) (s : State) (t : List Char) : Prop := ∀ p, p <+: t → d ≤ (run s p).depth

@[simp] theorem run_nil (s : State) : run s [] = s := rfl

@[simp] theorem run_cons (s : State) (c : Char) (t : List Char) :
    run s (c :: t) = run (step s c) t := rfl

theorem run_append (s : State) (t u : List Char) : run s (t ++ u) = run (run s t) u :=
  List.foldl_append

theorem above_nil {d : ℕ} {s : State} (h : d ≤ s.depth) : Above d s [] := by
  intro _ hp
  rw [List.prefix_nil.mp hp]
  exact h

theorem above_cons {d : ℕ} {s : State} {c : Char} {t : List Char} (h : d ≤ s.depth)
    (ht : Above d (step s c) t) : Above d s (c :: t) := by
  intro p hp
  rcases List.prefix_cons_iff.mp hp with rfl | ⟨p', rfl, hp'⟩
  · exact h
  · exact ht p' hp'

theorem above_step {d : ℕ} {s s' : State} {c : Char} {t : List Char} (hs : d ≤ s.depth)
    (hstep : step s c = s') (h : Above d s' t) : Above d s (c :: t) :=
  above_cons hs (hstep ▸ h)

theorem above_append {d : ℕ} {s : State} {t u : List Char} (ht : Above d s t)
    (hu : Above d (run s t) u) : Above d s (t ++ u) := by
  induction t generalizing s with
  | nil => exact hu
  | cons c t ih =>
      refine above_cons (ht [] List.nil_prefix) (ih ?_ hu)
      exact fun p hp ↦ ht (c :: p) (List.cons_prefix_cons.mpr ⟨rfl, hp⟩)

/-- The scanner comes back to where it was, and is nowhere below. -/
def Closed (t : List Char) : Prop :=
  ∀ d, run ⟨d, .plain⟩ t = ⟨d, .plain⟩ ∧ Above d ⟨d, .plain⟩ t

theorem closed_nil : Closed [] := fun _ ↦ ⟨rfl, above_nil le_rfl⟩

theorem Closed.append {t u : List Char} (ht : Closed t) (hu : Closed u) : Closed (t ++ u) := by
  intro d
  obtain ⟨hrun, habove⟩ := ht d
  obtain ⟨hrun', habove'⟩ := hu d
  refine ⟨by rw [run_append, hrun, hrun'], above_append habove ?_⟩
  rw [hrun]
  exact habove'

/-- A character that the scanner passes over outside of strings. -/
def Inert (c : Char) : Prop := c ∉ ['"', '{', '[', '}', ']']

instance (c : Char) : Decidable (Inert c) :=
  inferInstanceAs (Decidable (c ∉ ['"', '{', '[', '}', ']']))

theorem closed_of_inert {t : List Char} (h : ∀ c ∈ t, Inert c) : Closed t := by
  induction t with
  | nil => exact closed_nil
  | cons c t ih =>
      have hc := h c List.mem_cons_self
      simp only [Inert, List.mem_cons, List.not_mem_nil, or_false, not_or] at hc
      have hstep : ∀ d, step ⟨d, .plain⟩ c = ⟨d, .plain⟩ := by
        intro d
        simp [step, hc]
      intro d
      obtain ⟨hrun, habove⟩ := ih (fun c' hc' ↦ h c' (List.mem_cons_of_mem c hc')) d
      exact ⟨by rw [run_cons, hstep, hrun], above_step le_rfl (hstep d) habove⟩

theorem closed_blank {w : List Char} (hw : Blank w) : Closed w := by
  apply closed_of_inert
  intro c hc
  have hblank := hw c hc
  simp only [isBlank, Bool.or_eq_true, beq_iff_eq] at hblank
  rcases hblank with ((rfl | rfl) | rfl) | rfl <;> simp [Inert]

/-- Within the quotes the scanner stays in the string. -/
theorem run_characters {t : List Char} (h : Characters t) (d : ℕ) :
    run ⟨d, .string⟩ t = ⟨d, .string⟩ ∧ Above d ⟨d, .string⟩ t := by
  induction h with
  | nil => exact ⟨rfl, above_nil le_rfl⟩
  | @plain c t hc ht ih =>
      have hstep : step ⟨d, .string⟩ c = ⟨d, .string⟩ := by simp [step, hc.2.1, hc.2.2]
      exact ⟨by rw [run_cons, hstep, ih.1], above_step le_rfl hstep ih.2⟩
  | @escape c t hc ht ih =>
      have hback : step ⟨d, .string⟩ '\\' = ⟨d, .escape⟩ := by simp [step]
      have hstep : step ⟨d, .escape⟩ c = ⟨d, .string⟩ := rfl
      refine ⟨by rw [run_cons, hback, run_cons, hstep, ih.1], above_step le_rfl hback ?_⟩
      exact above_step le_rfl hstep ih.2
  | @unicode a b c e t hhex ht ih =>
      have hback : step ⟨d, .string⟩ '\\' = ⟨d, .escape⟩ := by simp [step]
      have hstep : step ⟨d, .escape⟩ 'u' = ⟨d, .string⟩ := rfl
      have hdigit : ∀ x, isHex x = true → step ⟨d, .string⟩ x = ⟨d, .string⟩ := by
        intro x hx
        have hquote : x ≠ '"' := by
          rintro rfl
          exact absurd hx (by decide)
        have hslash : x ≠ '\\' := by
          rintro rfl
          exact absurd hx (by decide)
        simp [step, hquote, hslash]
      simp only [List.all_cons, List.all_nil, Bool.and_eq_true, and_true] at hhex
      obtain ⟨ha, hb, hc, he⟩ := hhex
      refine ⟨?_, ?_⟩
      · simp only [run_cons, hback, hstep, hdigit a ha, hdigit b hb, hdigit c hc, hdigit e he, ih.1]
      · refine above_step le_rfl hback (above_step le_rfl hstep ?_)
        refine above_step le_rfl (hdigit a ha) (above_step le_rfl (hdigit b hb) ?_)
        exact above_step le_rfl (hdigit c hc) (above_step le_rfl (hdigit e he) ih.2)

theorem closed_string {t : List Char} (h : Characters t) : Closed ('"' :: t ++ ['"']) := by
  intro d
  obtain ⟨hrun, habove⟩ := run_characters h d
  have hopen : step ⟨d, .plain⟩ '"' = ⟨d, .string⟩ := rfl
  have hclose : step ⟨d, .string⟩ '"' = ⟨d, .plain⟩ := rfl
  rw [List.cons_append, run_cons, hopen, run_append, hrun, run_cons, hclose]
  refine ⟨rfl, above_step le_rfl hopen (above_append habove ?_)⟩
  rw [hrun]
  exact above_cons le_rfl (above_nil le_rfl)

/-- Inside of brackets the scanner is one level deeper. -/
theorem run_enclosed {opening closing : Char} {t : List Char}
    (hbrackets : opening = '{' ∧ closing = '}' ∨ opening = '[' ∧ closing = ']')
    (h : Closed t) (d : ℕ) : run ⟨d, .plain⟩ (opening :: t ++ [closing]) = ⟨d, .plain⟩ ∧
      ∀ p, p <+: t → d + 1 ≤ (run ⟨d, .plain⟩ (opening :: p)).depth := by
  obtain ⟨hrun, habove⟩ := h (d + 1)
  have hopen : step ⟨d, .plain⟩ opening = ⟨d + 1, .plain⟩ := by
    rcases hbrackets with ⟨rfl, -⟩ | ⟨rfl, -⟩ <;> rfl
  have hclose : step ⟨d + 1, .plain⟩ closing = ⟨d, .plain⟩ := by
    rcases hbrackets with ⟨-, rfl⟩ | ⟨-, rfl⟩ <;> rfl
  constructor
  · rw [List.cons_append, run_cons, hopen, run_append, hrun, run_cons, hclose, run_nil]
  · intro p hp
    rw [run_cons, hopen]
    exact habove p hp

theorem closed_enclosed {opening closing : Char} {t : List Char}
    (hbrackets : opening = '{' ∧ closing = '}' ∨ opening = '[' ∧ closing = ']')
    (h : Closed t) : Closed (opening :: t ++ [closing]) := by
  intro d
  obtain ⟨hrun, hinside⟩ := run_enclosed hbrackets h d
  refine ⟨hrun, fun p hp ↦ ?_⟩
  rcases List.prefix_cons_iff.mp hp with rfl | ⟨p', rfl, hp'⟩
  · exact le_rfl
  · rcases List.prefix_concat_iff.mp hp' with rfl | hp'
    · rw [← List.cons_append, hrun]
    · exact (Nat.le_succ d).trans (hinside p' hp')

/-! ## Texts of the grammar -/

def isNumberChar (c : Char) : Bool := isAsciiDigit c || ['-', '+', '.', 'e', 'E'].contains c

theorem chars_of_number {t : List Char} (h : IsNumber t) :
    t ≠ [] ∧ ∀ c ∈ t, isNumberChar c = true := by
  obtain ⟨sign, int, frac, exp, rfl, hsign, hint, -, hfrac, hexp⟩ := h
  have hdigits : ∀ {ds}, Digits ds → ∀ c ∈ ds, isNumberChar c = true := by
    intro ds hds c hc
    simp [isNumberChar, List.all_eq_true.mp hds.2 c hc]
  refine ⟨by simp [hint.1], ?_⟩
  simp only [List.forall_mem_append]
  refine ⟨⟨⟨?_, hdigits hint⟩, ?_⟩, ?_⟩
  · rcases hsign with rfl | rfl <;> decide
  · rcases hfrac with rfl | ⟨ds, rfl, hds⟩
    · exact List.forall_mem_nil _
    · exact List.forall_mem_cons.mpr ⟨by decide, hdigits hds⟩
  · rcases hexp with rfl | ⟨e, s, ds, rfl, he, hs, hds⟩
    · exact List.forall_mem_nil _
    · refine List.forall_mem_cons.mpr ⟨?_, List.forall_mem_append.mpr ⟨?_, hdigits hds⟩⟩
      · rcases he with rfl | rfl <;> decide
      · rcases hs with rfl | rfl | rfl <;> decide

theorem numberChar_spec {c : Char} (h : isNumberChar c = true) :
    Inert c ∧ isSpace c = false := by
  simp only [isNumberChar, Bool.or_eq_true, List.contains_eq_mem, decide_eq_true_eq, List.mem_cons,
    List.not_mem_nil, or_false] at h
  rcases h with hdigit | rfl | rfl | rfl | rfl | rfl
  · constructor
    · simp only [Inert, List.mem_cons, List.not_mem_nil, or_false, not_or]
      refine ⟨?_, ?_, ?_, ?_, ?_⟩ <;> rintro rfl <;> exact absurd hdigit (by decide)
    · simp only [isAsciiDigit, Bool.and_eq_true, decide_eq_true_eq, char_le_iff] at hdigit
      have hzero : '0'.toNat = 48 := rfl
      have hnine : '9'.toNat = 57 := rfl
      rw [hzero, hnine] at hdigit
      simp only [isSpace, Bool.or_eq_false_iff, Bool.and_eq_false_iff, decide_eq_false_iff_not,
        beq_eq_false_iff_ne]
      omega
  all_goals decide

theorem closed_number {t : List Char} (h : IsNumber t) : Closed t :=
  closed_of_inert fun c hc ↦ (numberChar_spec ((chars_of_number h).2 c hc)).1

theorem closed_of_derives {part : Part} {t : List Char} (h : Derives part t) : Closed t := by
  induction h with
  | null => exact closed_of_inert (by decide)
  | true => exact closed_of_inert (by decide)
  | false => exact closed_of_inert (by decide)
  | number h => exact closed_number h
  | string h => exact closed_string h
  | emptyArray hw => exact closed_enclosed (Or.inr ⟨rfl, rfl⟩) (closed_blank hw)
  | array _ ih => exact closed_enclosed (Or.inr ⟨rfl, rfl⟩) ih
  | emptyObject hw => exact closed_enclosed (Or.inl ⟨rfl, rfl⟩) (closed_blank hw)
  | object _ ih => exact closed_enclosed (Or.inl ⟨rfl, rfl⟩) ih
  | element hw _ hw' ih => exact ((closed_blank hw).append ih).append (closed_blank hw')
  | lastElement _ ih => exact ih
  | elements _ _ ih ihrest =>
      exact ih.append ((closed_of_inert (t := [',']) (by decide)).append ihrest)
  | @member w k w' t hw hk hw' _ ih =>
      have hcolon : Closed (':' :: t) := (closed_of_inert (t := [':']) (by decide)).append ih
      have hkey : Closed ('"' :: k ++ ['"']) := closed_string hk
      have hall := (((closed_blank hw).append hkey).append (closed_blank hw')).append hcolon
      simpa using hall
  | lastMember _ ih => exact ih
  | members _ _ ih ihrest =>
      exact ih.append ((closed_of_inert (t := [',']) (by decide)).append ihrest)

/-- A value starts and ends with characters that are no blanks. -/
theorem tight_of_value {t : List Char} (h : Derives .value t) :
    t ≠ [] ∧ (∀ c ∈ t.head?, isSpace c = false) ∧ ∀ c ∈ t.getLast?, isSpace c = false := by
  have hends : ∀ {u : List Char} {a b : Char}, u.head? = some a → u.getLast? = some b →
      isSpace a = false → isSpace b = false →
        u ≠ [] ∧ (∀ c ∈ u.head?, isSpace c = false) ∧ ∀ c ∈ u.getLast?, isSpace c = false := by
    intro u a b hfirst hlast ha hb
    refine ⟨List.ne_nil_of_mem (List.mem_of_mem_head? hfirst), ?_, ?_⟩
    · simpa [hfirst] using ha
    · simpa [hlast] using hb
  cases h with
  | null => exact hends rfl rfl (by decide) (by decide)
  | true => exact hends rfl rfl (by decide) (by decide)
  | false => exact hends rfl rfl (by decide) (by decide)
  | number h =>
      obtain ⟨hne, hchars⟩ := chars_of_number h
      exact ⟨hne, fun c hc ↦ (numberChar_spec (hchars c (List.mem_of_mem_head? hc))).2,
        fun c hc ↦ (numberChar_spec (hchars c (List.mem_of_mem_getLast? hc))).2⟩
  | string h => exact hends rfl List.getLast?_concat (by decide) (by decide)
  | emptyArray hw => exact hends rfl List.getLast?_concat (by decide) (by decide)
  | array h => exact hends rfl List.getLast?_concat (by decide) (by decide)
  | emptyObject hw => exact hends rfl List.getLast?_concat (by decide) (by decide)
  | object h => exact hends rfl List.getLast?_concat (by decide) (by decide)

/-- A value that starts with a brace is an object. -/
theorem object_of_value {t : List Char} (h : Derives .value t) (hhead : t.head? = some '{') :
    ∃ inner, t = '{' :: inner ++ ['}'] ∧ Closed inner := by
  cases h with
  | null => simp at hhead
  | true => simp at hhead
  | false => simp at hhead
  | number h =>
      have hbrace := (numberChar_spec ((chars_of_number h).2 _ (List.mem_of_mem_head? hhead))).1
      exact absurd hbrace (by decide)
  | string h => simp at hhead
  | emptyArray hw => simp at hhead
  | array h => simp at hhead
  | emptyObject hw => exact ⟨_, rfl, closed_blank hw⟩
  | object h => exact ⟨_, rfl, closed_of_derives h⟩

/-- No object text is the beginning of another one. -/
theorem eq_of_object_prefix {t u : List Char} (ht : Derives .value t) (hu : Derives .value u)
    (hhead : t.head? = some '{') (h : t <+: u) : t = u := by
  have hheadU : u.head? = some '{' := by
    obtain ⟨rest, rfl⟩ := List.head?_eq_some_iff.mp hhead
    obtain ⟨z, rfl⟩ := h
    rfl
  obtain ⟨inner, rfl, hinner⟩ := object_of_value hu hheadU
  obtain ⟨rest, rfl⟩ := List.head?_eq_some_iff.mp hhead
  rw [List.cons_append] at h ⊢
  have hrest := (List.cons_prefix_cons.mp h).2
  rcases List.prefix_concat_iff.mp hrest with rfl | hshort
  · rfl
  · -- the scanner is at depth 0 after `t`, and deeper inside of `u`
    have hdepth := (run_enclosed (Or.inl ⟨rfl, rfl⟩) hinner 0).2 rest hshort
    rw [((closed_of_derives ht) 0).1] at hdepth
    exact absurd hdepth (by simp)

theorem isSpace_of_isBlank {c : Char} (h : isBlank c = true) : isSpace c = true := by
  simp only [isBlank, Bool.or_eq_true, beq_iff_eq] at h
  rcases h with ((rfl | rfl) | rfl) | rfl <;> decide

/-- A text is its value between blanks. -/
theorem exists_value {t : List Char} (h : IsText t) :
    ∃ w v w', t = w ++ v ++ w' ∧ Blank w ∧ Derives .value v ∧ Blank w' := by
  cases h with
  | element hw hv hw' => exact ⟨_, _, _, rfl, hw, hv, hw'⟩

end JsonText
