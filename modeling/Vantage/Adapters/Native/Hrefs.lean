import Vantage.Adapters.Native.Crawler
import Vantage.Lib.RegexMatch

/-!
# Links with fragments

The pattern for links wants the closing quote right behind the part of a value
in front of the fragment, so a value that has a fragment is passed over.
-/

namespace Vantage.Adapters.Native.Crawler

open Text Regex

/-! ## Attributes -/

def isQuote (c : Char) : Bool := isOneOf "\"'" c

def isValueChar (c : Char) : Bool := isNoneOf "\"'#>" c

def isFragmentChar (c : Char) : Bool := isNoneOf "\"'>" c

def attributeNames : List String := ["href", "src", "action"]

/-- One of the names, in any case, and an equals sign, each with blanks behind it. -/
def IsAssignment (a : List Char) : Prop :=
  ∃ name w w', a = name ++ (w ++ '=' :: w') ∧
    (∃ n ∈ attributeNames, List.Forall₂ (fun a c ↦ sameLetter a c = true) n.toList name) ∧
    (∀ c ∈ w, isSpace c = true) ∧ ∀ c ∈ w', isSpace c = true

def NoAttribute (text : List Char) : Prop := ∀ a, IsAssignment a → ¬ a <:+: text

/-- A text with one attribute of the names, whose quoted value is a part and maybe a fragment. -/
structure Markup where
  before : List Char
  assignment : List Char
  quoteMark : Char
  part : List Char
  fragment : Option (List Char)
  after : List Char
  before_ok : NoAttribute before
  assignment_ok : IsAssignment assignment
  quoteMark_ok : isQuote quoteMark = true
  part_ne : part ≠ []
  part_ok : ∀ c ∈ part, isValueChar c = true
  fragment_ok : ∀ f ∈ fragment, ∀ c ∈ f, isFragmentChar c = true
  after_ok : NoAttribute after

namespace Markup

def value (m : Markup) : List Char := m.part ++ m.fragment.elim [] ('#' :: ·)

def html (m : Markup) : List Char :=
  m.before ++ (m.assignment ++ m.quoteMark :: (m.value ++ m.quoteMark :: m.after))

/-- The value that the pattern takes. Behind a fragment this can only be a text after the closing
quote, when the fragment ends like an attribute of its own. -/
def Takes (m : Markup) (v : List Char) : Prop :=
  match m.fragment with
  | none => v = m.part
  | some f => (∃ a, IsAssignment a ∧ a <:+ f) ∧ v ≠ [] ∧ (∀ c ∈ v, isValueChar c = true) ∧
      ∃ q rest, isQuote q = true ∧ m.after = v ++ q :: rest

end Markup

/-- The link that a value leads to. -/
def LeadsTo (base : String) (v : List Char) (link : String) : Prop :=
  skippedSchemes.any (startsWith (lower (strip (String.ofList v)))) = false ∧
    ∃ joined, urljoin base (strip (String.ofList v)) = .ok joined ∧ stripFragment joined = link

/-- The link of the part in front of the fragment is among those of the text. -/
def Finds (base : String) (m : Markup) : Prop :=
  ∀ url, urljoin base (String.ofList m.part) = .ok url →
    ∃ links, extractLinks base (String.ofList m.html) = .ok links ∧ stripFragment url ∈ links

/-! ## Quotes -/

/-- A text is divided in one way at the first character of a class. -/
theorem split_unique {p : Char → Bool} {a b s s' : List Char} {x y : Char}
    (ha : ∀ c ∈ a, p c = false) (hx : p x = true) (hb : ∀ c ∈ b, p c = false) (hy : p y = true)
    (h : a ++ x :: s = b ++ y :: s') : a = b ∧ x = y ∧ s = s' := by
  induction a generalizing b with
  | nil =>
      cases b with
      | nil => exact ⟨rfl, List.cons.inj h⟩
      | cons d b =>
          obtain rfl := (List.cons.inj h).1
          simp [hb x List.mem_cons_self] at hx
  | cons c a ih =>
      cases b with
      | nil =>
          obtain rfl := (List.cons.inj h).1
          simp [ha c List.mem_cons_self] at hy
      | cons d b =>
          obtain ⟨rfl, hrest⟩ := List.cons.inj h
          obtain ⟨rfl, hxy, hs⟩ := ih (fun c hc ↦ ha c (List.mem_cons_of_mem _ hc))
            (fun c hc ↦ hb c (List.mem_cons_of_mem _ hc)) hrest
          exact ⟨rfl, hxy, hs⟩

theorem suffix_append_cases {t x y : List Char} (h : t <:+ x ++ y) :
    (∃ u, u <:+ x ∧ t = u ++ y) ∨ t <:+ y := by
  rcases List.suffix_or_suffix_of_suffix h (List.suffix_append x y) with hshort | ⟨u, rfl⟩
  · exact Or.inr hshort
  · exact Or.inl ⟨u, List.suffix_append_self_iff.mp h, rfl⟩

/-- No letter of a name is a blank or one of the marks around values. -/
theorem nameChar_spec {n : String} (hn : n ∈ attributeNames) {a c : Char} (ha : a ∈ n.toList)
    (h : sameLetter a c = true) : 65 ≤ c.toNat := by
  have hlow : ∀ n ∈ attributeNames, ∀ a ∈ n.toList, 65 ≤ a.toLower.toNat := by decide
  by_cases hc : 'A'.val ≤ c.val ∧ c.val ≤ 'Z'.val
  · exact hc.1
  · have hid : c.toLower = c := dif_neg hc
    simp only [sameLetter, hid, Bool.or_eq_true, Bool.and_eq_true, beq_iff_eq] at h
    rcases h with ((rfl | h) | h) | ⟨-, h⟩
    · exact hlow n hn a ha
    · omega
    · omega
    · omega

theorem isQuote_iff {c : Char} : isQuote c = true ↔ c = '"' ∨ c = '\'' := by
  simp [isQuote, isOneOf]

/-- An assignment holds no quote and starts no fragment. -/
theorem not_mark_of_assignment {a : List Char} (h : IsAssignment a) :
    ∀ c ∈ a, isQuote c = false ∧ c ≠ '#' := by
  obtain ⟨name, w, w', rfl, ⟨n, hn, hname⟩, hw, hw'⟩ := h
  have hmark : ∀ c : Char, c.toNat ≠ 34 → c.toNat ≠ 39 → c.toNat ≠ 35 →
      isQuote c = false ∧ c ≠ '#' := by
    intro c hdouble hsingle hhash
    refine ⟨?_, ?_⟩
    · rw [← Bool.not_eq_true, isQuote_iff]
      rintro (rfl | rfl)
      · exact hdouble rfl
      · exact hsingle rfl
    · rintro rfl
      exact hhash rfl
  have hspace : ∀ c : Char, isSpace c = true → isQuote c = false ∧ c ≠ '#' := by
    intro c hc
    refine hmark c ?_ ?_ ?_ <;> intro heq <;> simp [isSpace, heq] at hc
  intro c hc
  rcases List.mem_append.mp hc with hc | hc
  · obtain ⟨i, hi, rfl⟩ := List.mem_iff_getElem.mp hc
    have hlen := hname.length_eq
    have hletter := hname.get (i := i) (hlen ▸ hi) hi
    have hlow := nameChar_spec hn (List.getElem_mem (hlen ▸ hi)) hletter
    refine hmark _ ?_ ?_ ?_ <;> simp only [List.get_eq_getElem] at hlow <;> omega
  · rcases List.mem_append.mp hc with hc | hc
    · exact hspace c (hw c hc)
    · rcases List.mem_cons.mp hc with rfl | hc
      · decide
      · exact hspace c (hw' c hc)

theorem noQuote_of_value {v : List Char} (h : ∀ c ∈ v, isValueChar c = true) :
    ∀ c ∈ v, isQuote c = false ∧ c ≠ '#' := by
  intro c hc
  have hvalue := h c hc
  simp only [isValueChar, isNoneOf, Bool.not_eq_true', List.contains_eq_mem] at hvalue
  have hnone : c ∉ "\"'#>".toList := by simpa using hvalue
  refine ⟨?_, ?_⟩
  · rw [← Bool.not_eq_true, isQuote_iff]
    rintro (rfl | rfl) <;> exact hnone (by decide)
  · rintro rfl
    exact hnone (by decide)

theorem noQuote_of_fragment {f : List Char} (h : ∀ c ∈ f, isFragmentChar c = true) :
    ∀ c ∈ f, isQuote c = false := by
  intro c hc
  have hchar := h c hc
  simp only [isFragmentChar, isNoneOf, Bool.not_eq_true', List.contains_eq_mem] at hchar
  have hnone : c ∉ "\"'>".toList := by simpa using hchar
  rw [← Bool.not_eq_true, isQuote_iff]
  rintro (rfl | rfl) <;> exact hnone (by decide)

/-- What the pattern for links matches, and its group. -/
theorem matches_href {t : List Char} {g : Option (List Char)} : Matches hrefPattern t g ↔
    ∃ a q v q', t = a ++ q :: (v ++ [q']) ∧ IsAssignment a ∧ isQuote q = true ∧ v ≠ [] ∧
      (∀ c ∈ v, isValueChar c = true) ∧ isQuote q' = true ∧ g = some v := by
  have hnames : ∀ {t g}, Matches (.alt (.litIgnoringCase "href")
      (.alt (.litIgnoringCase "src") (.litIgnoringCase "action"))) t g ↔
        (∃ n ∈ attributeNames, List.Forall₂ (fun a c ↦ sameLetter a c = true) n.toList t) ∧
          g = none := by
    intro t g
    simp only [Matches, matches_litIgnoringCase, attributeNames, List.mem_cons,
      List.not_mem_nil, or_false, exists_eq_or_imp, exists_eq_left]
    rw [← or_and_right, ← or_and_right]
  unfold hrefPattern assigned
  simp only [List.cons_append, List.nil_append]
  constructor
  · rintro ⟨name, g₁, _, _, h₁, ⟨w, g₂, _, _, h₂, ⟨eq, g₃, _, _, h₃, ⟨w', g₄, _, _, h₄,
      ⟨o, g₅, _, _, h₅, ⟨v, g₆, _, _, h₆, ⟨c, g₇, _, _, h₇, ⟨rfl, rfl⟩, rfl, rfl⟩, rfl, rfl⟩,
      rfl, rfl⟩, rfl, rfl⟩, rfl, rfl⟩, rfl, rfl⟩, rfl, rfl⟩
    obtain ⟨hname, rfl⟩ := hnames.mp h₁
    obtain ⟨hw, rfl⟩ := matches_many.mp h₂
    obtain ⟨rfl, rfl⟩ := matches_lit.mp h₃
    obtain ⟨hw', rfl⟩ := matches_many.mp h₄
    obtain ⟨q, hq, rfl, rfl⟩ := matches_one.mp h₅
    obtain ⟨g', h₆, rfl⟩ := h₆
    obtain ⟨hv, hne, rfl⟩ := matches_some1.mp h₆
    obtain ⟨q', hq', rfl, rfl⟩ := matches_one.mp h₇
    exact ⟨name ++ (w ++ '=' :: w'), q, v, q', by simp, ⟨name, w, w', rfl, hname, hw, hw'⟩, hq,
      hne, hv, hq', rfl⟩
  · rintro ⟨a, q, v, q', rfl, ⟨name, w, w', rfl, hname, hw, hw'⟩, hq, hne, hv, hq', rfl⟩
    refine ⟨name, none, _, _, hnames.mpr ⟨hname, rfl⟩,
      ⟨w, none, _, _, matches_many.mpr ⟨hw, rfl⟩,
      ⟨['='], none, _, _, matches_lit.mpr ⟨by simp, rfl⟩,
      ⟨w', none, _, _, matches_many.mpr ⟨hw', rfl⟩,
      ⟨[q], none, _, _, matches_one.mpr ⟨q, hq, rfl, rfl⟩,
      ⟨v, some v, _, _, ⟨none, matches_some1.mpr ⟨hv, hne, rfl⟩, rfl⟩,
      ⟨[q'], none, _, _, matches_one.mpr ⟨q', hq', rfl, rfl⟩, ⟨rfl, rfl⟩, rfl, rfl⟩, rfl, rfl⟩,
      rfl, rfl⟩, rfl, rfl⟩, rfl, rfl⟩, rfl, rfl⟩, ?_, ?_⟩
    · simp
    · rfl

theorem mem_outcomes_href {t : List Char} {o : Outcome} : o ∈ outcomes hrefPattern t ↔
    ∃ a q v q', t = a ++ q :: (v ++ q' :: o.rest) ∧ o.text = a ++ q :: (v ++ [q']) ∧
      IsAssignment a ∧ isQuote q = true ∧ v ≠ [] ∧ (∀ c ∈ v, isValueChar c = true) ∧
      isQuote q' = true ∧ o.group = some v := by
  rw [mem_outcomes_iff, matches_href]
  constructor
  · rintro ⟨rfl, a, q, v, q', htext, hmatch⟩
    exact ⟨a, q, v, q', by simp [htext], htext, hmatch⟩
  · rintro ⟨a, q, v, q', rfl, htext, hmatch⟩
    exact ⟨by simp [htext], a, q, v, q', htext, hmatch⟩

/-! ## Matches in a text with one attribute -/

namespace Markup

variable {m : Markup} {t a v rest : List Char} {q q' : Char}

theorem noQuote_value (m : Markup) : ∀ c ∈ m.value, isQuote c = false := by
  intro c hc
  unfold value at hc
  cases hfragment : m.fragment with
  | none =>
      rw [hfragment, Option.elim_none, List.append_nil] at hc
      exact (noQuote_of_value m.part_ok c hc).1
  | some f =>
      rw [hfragment, Option.elim_some] at hc
      rcases List.mem_append.mp hc with hc | hc
      · exact (noQuote_of_value m.part_ok c hc).1
      · rcases List.mem_cons.mp hc with rfl | hc
        · decide
        · exact noQuote_of_fragment (m.fragment_ok f hfragment) c hc

/-- A match takes the value of the attribute, or starts in it and takes a text behind it. -/
theorem match_spec (ht : t <:+ m.html) (hsplit : t = a ++ q :: (v ++ q' :: rest))
    (ha : IsAssignment a) (hq : isQuote q = true) (hv : ∀ c ∈ v, isValueChar c = true)
    (hq' : isQuote q' = true) :
    (v = m.value ∧ rest = m.after) ∨ (a <:+ m.value ∧ m.after = v ++ q' :: rest) := by
  have haQuote : ∀ c ∈ a, isQuote c = false := fun c hc ↦ (not_mark_of_assignment ha c hc).1
  have hvQuote : ∀ c ∈ v, isQuote c = false := fun c hc ↦ (noQuote_of_value hv c hc).1
  have hopen : ∀ u, (∀ c ∈ u, isQuote c = false) →
      t = u ++ m.quoteMark :: (m.value ++ m.quoteMark :: m.after) →
      v = m.value ∧ rest = m.after := by
    intro u hu heq
    obtain ⟨-, -, hrest⟩ := split_unique haQuote hq hu m.quoteMark_ok (hsplit.symm.trans heq)
    obtain ⟨hvalue, -, hafter⟩ :=
      split_unique hvQuote hq' m.noQuote_value m.quoteMark_ok hrest
    exact ⟨hvalue, hafter⟩
  have hclose : ∀ u, u <:+ m.value → t = u ++ m.quoteMark :: m.after →
      a <:+ m.value ∧ m.after = v ++ q' :: rest := by
    intro u hu heq
    have huQuote : ∀ c ∈ u, isQuote c = false := fun c hc ↦ m.noQuote_value c (hu.subset hc)
    obtain ⟨rfl, -, hrest⟩ := split_unique haQuote hq huQuote m.quoteMark_ok
      (hsplit.symm.trans heq)
    exact ⟨hu, hrest.symm⟩
  have hassignment : ∀ c ∈ m.assignment, isQuote c = false := fun c hc ↦
    (not_mark_of_assignment m.assignment_ok c hc).1
  have haPrefix : a <+: t := hsplit ▸ List.prefix_append _ _
  rcases suffix_append_cases ht with ⟨u, hu, heq⟩ | ht
  · -- the assignment of the match is not within the text before the attribute
    have huPrefix : u <+: t := heq ▸ List.prefix_append _ _
    rcases List.prefix_or_prefix_of_prefix haPrefix huPrefix with hinside | hbeyond
    · exact absurd (hinside.isInfix.trans hu.isInfix) (m.before_ok a ha)
    · refine Or.inl (hopen (u ++ m.assignment) ?_ (by rw [heq, List.append_assoc]))
      exact fun c hc ↦ (List.mem_append.mp hc).elim (fun hc ↦ haQuote c (hbeyond.subset hc))
        (hassignment c)
  · rcases suffix_append_cases ht with ⟨u, hu, heq⟩ | ht
    · exact Or.inl (hopen u (fun c hc ↦ hassignment c (hu.subset hc)) heq)
    · rcases List.suffix_cons_iff.mp ht with heq | ht
      · exact Or.inl (hopen [] (List.forall_mem_nil _) heq)
      · rcases suffix_append_cases ht with ⟨u, hu, heq⟩ | ht
        · exact Or.inr (hclose u hu heq)
        · rcases List.suffix_cons_iff.mp ht with heq | ht
          · exact Or.inr (hclose [] (List.nil_suffix) heq)
          · exact absurd (haPrefix.isInfix.trans ht.isInfix) (m.after_ok a ha)

/-- A value with a fragment is not taken as it stands. -/
theorem takes_of_match {f : List Char} (hfragment : m.fragment = some f) (ht : t <:+ m.html)
    (hsplit : t = a ++ q :: (v ++ q' :: rest)) (ha : IsAssignment a) (hq : isQuote q = true)
    (hne : v ≠ []) (hv : ∀ c ∈ v, isValueChar c = true) (hq' : isQuote q' = true) :
    m.Takes v ∧ m.after = v ++ q' :: rest := by
  have hvalue : m.value = m.part ++ '#' :: f := by rw [value, hfragment, Option.elim_some]
  rcases match_spec ht hsplit ha hq hv hq' with ⟨hwhole, -⟩ | ⟨hsuffix, hafter⟩
  · have hhash : '#' ∈ v := by simp [hwhole, hvalue]
    exact absurd rfl (noQuote_of_value hv '#' hhash).2
  · refine ⟨?_, hafter⟩
    have hnoHash : '#' ∉ a := fun hc ↦ (not_mark_of_assignment ha '#' hc).2 rfl
    have hinside : a <:+ f := by
      rw [hvalue] at hsuffix
      rcases suffix_append_cases hsuffix with ⟨u, -, rfl⟩ | hsuffix
      · exact absurd (by simp) hnoHash
      · rcases List.suffix_cons_iff.mp hsuffix with rfl | hsuffix
        · exact absurd List.mem_cons_self hnoHash
        · exact hsuffix
    rw [Takes, hfragment]
    exact ⟨⟨a, ha, hinside⟩, hne, hv, q', rest, hq', hafter⟩

/-- Behind the attribute there is no match. -/
theorem findFrom_after {n : ℕ} (h : rest <:+ m.after) : findFrom hrefPattern n rest = [] := by
  refine findFrom_eq_nil fun t ht o ho ↦ ?_
  obtain ⟨a, q, v, q', rfl, -, ha, -⟩ := mem_outcomes_href.mp ho
  have hinside : a <:+: m.after :=
    (List.prefix_append a _).isInfix.trans (ht.trans h).isInfix
  exact absurd hinside (m.after_ok a ha)

/-- The text from the attribute on. -/
theorem attribute_suffix (m : Markup) :
    m.assignment ++ m.quoteMark :: (m.value ++ m.quoteMark :: m.after) <:+ m.html :=
  List.suffix_append _ _

/-- A match that reaches over the attribute takes its part. -/
theorem part_of_match (hfragment : m.fragment = none) (ht : t <:+ m.html)
    (hreach : m.assignment ++ m.quoteMark :: (m.value ++ m.quoteMark :: m.after) <:+ t)
    (hsplit : t = a ++ q :: (v ++ q' :: rest)) (ha : IsAssignment a) (hq : isQuote q = true)
    (hv : ∀ c ∈ v, isValueChar c = true) (hq' : isQuote q' = true) :
    v = m.part ∧ rest = m.after := by
  have hvalue : m.value = m.part := by
    rw [value, hfragment, Option.elim_none, List.append_nil]
  rcases match_spec ht hsplit ha hq hv hq' with hwhole | ⟨hsuffix, hafter⟩
  · rwa [hvalue] at hwhole
  · have hlong := hreach.length_le
    have hshort := hsuffix.length_le
    rw [hsplit, ← hafter] at hlong
    have hassignment : m.assignment ≠ [] := by
      obtain ⟨name, w, w', heq, -⟩ := m.assignment_ok
      simp [heq]
    have hpos := List.length_pos_iff.mpr hassignment
    simp only [List.length_append, List.length_cons] at hlong
    omega

theorem findAll_of_takes (h : m.Takes v) :
    ∃ o, findAll hrefPattern m.html = [o] ∧ o.group = some v := by
  cases hfragment : m.fragment with
  | none =>
      rw [Takes, hfragment] at h
      have hvalue : m.value = m.part := by
        rw [value, hfragment, Option.elim_none, List.append_nil]
      have hmatch : (⟨m.assignment ++ m.quoteMark :: (m.value ++ [m.quoteMark]), some m.value,
          m.after⟩ : Outcome) ∈ outcomes hrefPattern
            (m.assignment ++ m.quoteMark :: (m.value ++ m.quoteMark :: m.after)) :=
        mem_outcomes_href.mpr ⟨_, _, _, _, rfl, rfl, m.assignment_ok, m.quoteMark_ok,
          hvalue ▸ m.part_ne, hvalue ▸ m.part_ok, m.quoteMark_ok, rfl⟩
      obtain ⟨t, o, n, ht, hreach, ho, -, hfound⟩ := findFrom_eq_cons (n := m.html.length + 1)
        (Nat.lt_succ_self _) m.attribute_suffix hmatch (by simp)
      obtain ⟨a, q, v', q', hsplit, -, ha, hq, -, hv, hq', hgroup⟩ := mem_outcomes_href.mp ho
      obtain ⟨rfl, hrest⟩ := part_of_match hfragment ht hreach hsplit ha hq hv hq'
      refine ⟨o, ?_, hgroup.trans (congrArg some h.symm)⟩
      rw [findAll, hfound, hrest, findFrom_after List.suffix_rfl]
  | some f =>
      have htakes := h
      rw [Takes, hfragment] at h
      obtain ⟨⟨a, ha, hinside⟩, hne, hv, q, rest, hq, hafter⟩ := h
      have hmatch : (⟨a ++ m.quoteMark :: (v ++ [q]), some v, rest⟩ : Outcome) ∈
          outcomes hrefPattern (a ++ m.quoteMark :: m.after) :=
        mem_outcomes_href.mpr ⟨_, _, _, _, by rw [hafter], rfl, ha, m.quoteMark_ok, hne, hv, hq,
          rfl⟩
      have hsuffix : a ++ m.quoteMark :: m.after <:+ m.html := by
        have hvalue : a <:+ m.value := by
          rw [value, hfragment]
          exact (hinside.trans (List.suffix_cons '#' f)).trans (List.suffix_append m.part _)
        have hclose : a ++ m.quoteMark :: m.after <:+ m.value ++ m.quoteMark :: m.after :=
          List.suffix_append_self_iff.mpr hvalue
        exact (hclose.trans (List.suffix_cons m.quoteMark _)).trans
          ((List.suffix_append m.assignment _).trans m.attribute_suffix)
      obtain ⟨t, o, n, ht, -, ho, -, hfound⟩ := findFrom_eq_cons (n := m.html.length + 1)
        (Nat.lt_succ_self _) hsuffix hmatch (by simp)
      obtain ⟨b, p, v', p', hsplit, -, hb, hp, hne', hv', hp', hgroup⟩ := mem_outcomes_href.mp ho
      obtain ⟨-, hafter'⟩ := takes_of_match hfragment ht hsplit hb hp hne' hv' hp'
      obtain ⟨rfl, -, -⟩ := split_unique (fun c hc ↦ (noQuote_of_value hv' c hc).1) hp'
        (fun c hc ↦ (noQuote_of_value hv c hc).1) hq (hafter'.symm.trans hafter)
      refine ⟨o, ?_, hgroup⟩
      have hrest : o.rest <:+ m.after := by
        rw [hafter']
        exact (List.suffix_cons p' _).trans (List.suffix_append _ _)
      rw [findAll, hfound, findFrom_after hrest]

theorem findAll_of_not_takes (h : ∀ v, ¬ m.Takes v) : findAll hrefPattern m.html = [] := by
  refine findFrom_eq_nil fun t ht o ho ↦ ?_
  obtain ⟨a, q, v, q', hsplit, -, ha, hq, hne, hv, hq', -⟩ := mem_outcomes_href.mp ho
  cases hfragment : m.fragment with
  | none =>
      have htakes : m.Takes m.part := by rw [Takes, hfragment]
      exact absurd htakes (h m.part)
  | some f =>
      exact absurd (takes_of_match hfragment ht hsplit ha hq hne hv hq').1 (h v)

end Markup

/-! ## Links -/

/-- The text has one link at most, that of the value that the pattern takes. -/
theorem exists_link_iff (base : String) (m : Markup) (link : String) :
    (∃ links, extractLinks base (String.ofList m.html) = .ok links ∧ link ∈ links) ↔
      ∃ v, m.Takes v ∧ LeadsTo base v link := by
  by_cases htakes : ∃ v, m.Takes v
  · obtain ⟨v, hv⟩ := htakes
    obtain ⟨o, hfound, hgroup⟩ := m.findAll_of_takes hv
    have hunique : ∀ v', m.Takes v' → v' = v := by
      intro v' hv'
      obtain ⟨o', hfound', hgroup'⟩ := m.findAll_of_takes hv'
      obtain rfl := List.singleton_inj.mp (hfound'.symm.trans hfound)
      exact Option.some.inj (hgroup'.symm.trans hgroup)
    have hgroups : groupsOf hrefPattern (String.ofList m.html) = [String.ofList v] := by
      rw [groupsOf, String.toList_ofList, hfound, List.map_singleton, hgroup, Option.getD_some]
    have hlinks : (∃ links, extractLinks base (String.ofList m.html) = .ok links ∧ link ∈ links) ↔
        LeadsTo base v link := by
      rw [extractLinks, hgroups, List.map_singleton, LeadsTo]
      generalize strip (String.ofList v) = raw
      cases hskip : skippedSchemes.any (startsWith (lower raw)) with
      | true => simp [hskip, pure, Except.pure]
      | false =>
          rw [List.filter_cons_of_pos (by simp [hskip])]
          simp only [List.filter_nil, List.mapM_cons, List.mapM_nil]
          cases urljoin base raw with
          | error e => simp [bind, Except.bind]
          | ok joined => simp [bind, Except.bind, pure, Except.pure, eq_comm]
    rw [hlinks]
    exact ⟨fun h ↦ ⟨v, hv, h⟩, fun ⟨v', hv', h⟩ ↦ hunique v' hv' ▸ h⟩
  · have hnone := m.findAll_of_not_takes (not_exists.mp htakes)
    have hlinks : extractLinks base (String.ofList m.html) = .ok [] := by
      rw [extractLinks, groupsOf, String.toList_ofList, hnone]
      rfl
    refine iff_of_false ?_ fun ⟨v, hv, _⟩ ↦ htakes ⟨v, hv⟩
    rintro ⟨links, heq, hmem⟩
    obtain rfl := Except.ok.inj (hlinks.symm.trans heq)
    exact absurd hmem List.not_mem_nil

/-- The link of the part is found exactly when the value that the pattern takes leads there. -/
theorem finds_iff (base : String) (m : Markup) :
    Finds base m ↔ ∀ url, urljoin base (String.ofList m.part) = .ok url →
      ∃ v, m.Takes v ∧ LeadsTo base v (stripFragment url) :=
  forall_congr' fun url ↦ imp_congr_right fun _ ↦ exists_link_iff base m (stripFragment url)

/-- Without a fragment and blanks around it, the link is found unless its scheme is skipped. -/
theorem finds_of_no_fragment {base : String} {m : Markup} (hfragment : m.fragment = none)
    (hstrip : strip (String.ofList m.part) = String.ofList m.part)
    (hskip : skippedSchemes.any (startsWith (lower (String.ofList m.part))) = false) :
    Finds base m := by
  intro url hurl
  refine (exists_link_iff base m _).mpr ⟨m.part, by rw [Markup.Takes, hfragment], ?_⟩
  rw [LeadsTo, hstrip]
  exact ⟨hskip, url, hurl, rfl⟩

/-- With a fragment that holds no equals sign, nothing is found. -/
theorem not_finds_of_fragment {base url : String} {m : Markup} {f : List Char}
    (hfragment : m.fragment = some f) (hf : '=' ∉ f)
    (hurl : urljoin base (String.ofList m.part) = .ok url) : ¬ Finds base m := by
  intro hfinds
  obtain ⟨v, htakes, -⟩ := (exists_link_iff base m _).mp (hfinds url hurl)
  rw [Markup.Takes, hfragment] at htakes
  obtain ⟨⟨a, ⟨name, w, w', rfl, -⟩, hinside⟩, -⟩ := htakes
  exact hf (hinside.subset (by simp))

/-! ## A link to a section -/

theorem noAttribute_of_notMem {text : List Char} (h : '=' ∉ text) : NoAttribute text := by
  rintro a ⟨name, w, w', rfl, -⟩ hinside
  exact h (hinside.subset (by simp))

theorem tagStart_ok : NoAttribute ['<', 'a', ' '] := noAttribute_of_notMem (by decide)

theorem tagEnd_ok : NoAttribute ['>'] := noAttribute_of_notMem (by decide)

theorem href_ok : IsAssignment ['h', 'r', 'e', 'f', '='] :=
  ⟨['h', 'r', 'e', 'f'], [], [], rfl, ⟨"href", by decide, by simp [sameLetter]⟩, by simp, by simp⟩

theorem sectionPart_ok : ∀ c ∈ ['/', 'a'], isValueChar c = true := by decide

theorem sectionFragment_ok : ∀ f ∈ some ['t', 'o', 'p'], ∀ c ∈ f, isFragmentChar c = true := by
  decide

/-- The text `<a href="/a#top">`. -/
def sectionLink : Markup where
  before := ['<', 'a', ' ']
  assignment := ['h', 'r', 'e', 'f', '=']
  quoteMark := '"'
  part := ['/', 'a']
  fragment := some ['t', 'o', 'p']
  after := ['>']
  before_ok := tagStart_ok
  assignment_ok := href_ok
  quoteMark_ok := rfl
  part_ne := List.cons_ne_nil _ _
  part_ok := sectionPart_ok
  fragment_ok := sectionFragment_ok
  after_ok := tagEnd_ok

theorem not_finds_sectionLink :
    urljoin "https://app.example/" (String.ofList sectionLink.part) =
        .ok "https://app.example/a" ∧
      ¬ Finds "https://app.example/" sectionLink := by
  have hjoin : Url.urljoin "https://app.example/" "/a" = some "https://app.example/a" := by
    decide +kernel
  have hurl : urljoin "https://app.example/" (String.ofList sectionLink.part) =
      .ok "https://app.example/a" := by
    have hpart : String.ofList sectionLink.part = "/a" := by decide
    rw [hpart, urljoin, hjoin]
  exact ⟨hurl, not_finds_of_fragment rfl (by decide) hurl⟩

end Vantage.Adapters.Native.Crawler
