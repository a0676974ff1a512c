import Vantage.Ai.Provider
import Vantage.Lib.JsonText

/-!
# Replies in code fences

A reply may be the text of an object, or a code fence around it. The fence is
taken to end at the next three backticks, wherever they stand.
-/

namespace Vantage.Ai

open Text JsonText

variable {loads : String → Except PyError Json} {model provider : String} {s : List Char}
  {members : List (String × Json)}

/-- What the module `json` promises of its reader. -/
structure ReadsJson (loads : String → Except PyError Json) : Prop where
  accepts : ∀ t, (∃ v, loads (String.ofList t) = .ok v) ↔ IsText t
  rejects : ∀ t e, loads (String.ofList t) = .error e → e = .jsonDecodeError
  blanks : ∀ w t w', Blank w → Derives .value t → Blank w' →
    loads (String.ofList (w ++ t ++ w')) = loads (String.ofList t)
  objects : ∀ t members, Derives .value t → loads (String.ofList t) = .ok (.obj members) →
    t.head? = some '{'

def Spaces (w : List Char) : Prop := ∀ c ∈ w, isSpace c = true

def decoded (loads : String → Except PyError Json) (model provider : String) (text : List Char) :
    Except PyError Json := LLMResponse.json loads ⟨String.ofList text, model, provider⟩

/-- The reply gives the object that its text carries, bare and in both kinds of fences. -/
structure Decodes (loads : String → Except PyError Json) (model provider : String) (s : List Char)
    (members : List (String × Json)) : Prop where
  bare : ∀ w w', Spaces w → Spaces w' → decoded loads model provider (w ++ s ++ w') =
    .ok (.obj members)
  tagged : ∀ w w' a b, Spaces w → Spaces w' → Spaces a → Spaces b → decoded loads model provider
    (w ++ (fence ++ "json".toList ++ a ++ s ++ b ++ fence) ++ w') = .ok (.obj members)
  untagged : ∀ w w' a b, Spaces w → Spaces w' → Spaces a → Spaces b → decoded loads model provider
    (w ++ (fence ++ a ++ s ++ b ++ fence) ++ w') = .ok (.obj members)

theorem Decodes.fenced (h : Decodes loads model provider s members) :
    decoded loads model provider (fence ++ s ++ fence) = .ok (.obj members) := by
  have hnone := List.forall_mem_nil fun c ↦ isSpace c = true
  simpa only [List.nil_append, List.append_nil] using
    h.untagged [] [] [] [] hnone hnone hnone hnone

/-! ## Up to the next fence -/

def tick : Char := Char.ofNat 96

theorem fence_eq : fence = [tick, tick, tick] := by decide

theorem not_fence_of_ne {c : Char} (hc : c ≠ tick) (l : List Char) :
    fence.isPrefixOf (c :: l) = false := by
  by_contra hpre
  have hbegin : fence <+: c :: l := List.isPrefixOf_iff_prefix.mp (by simpa using hpre)
  rw [fence_eq] at hbegin
  exact hc (List.cons_prefix_cons.mp hbegin).1.symm

theorem beforeText_append_of_notMem {l : List Char} (h : tick ∉ l) (r : List Char) :
    beforeText fence (l ++ r) = (beforeText fence r).map (l ++ ·) := by
  induction l with
  | nil => simp
  | cons c l ih =>
      rw [List.mem_cons, not_or] at h
      have hno := not_fence_of_ne (fun hc ↦ h.1 hc.symm) (l ++ r)
      rw [List.cons_append, beforeText, hno, ih h.2]
      simp [Option.map_map, Function.comp_def]

theorem prefix_of_prefix_append_cons {v l r : List Char} {c : Char} (hc : c ∉ v)
    (h : v <+: l ++ c :: r) : v <+: l := by
  rcases List.prefix_or_prefix_of_prefix h (List.prefix_append l (c :: r)) with h' | ⟨m, rfl⟩
  · exact h'
  · cases m with
    | nil => simp
    | cons d m =>
        have hd := List.cons_prefix_cons.mp ((List.prefix_append_right_inj l).mp h)
        exact absurd (by simp [hd.1]) hc

/-- A text without a fence is passed over, when no fence can start at its end. -/
theorem beforeText_append_cons {l : List Char} {c : Char} (hc : c ≠ tick) (h : ¬ fence <:+: l)
    (r : List Char) : beforeText fence (l ++ c :: r) = (beforeText fence r).map (l ++ c :: ·) := by
  have hmem : c ∉ fence := by simpa [fence_eq] using hc
  induction l with
  | nil =>
      rw [List.nil_append, beforeText, not_fence_of_ne hc]
      simp
  | cons d l ih =>
      have hno : fence.isPrefixOf (d :: (l ++ c :: r)) = false := by
        by_contra hpre
        have hbegin : fence <+: (d :: l) ++ c :: r :=
          List.isPrefixOf_iff_prefix.mp (by simpa using hpre)
        exact h (prefix_of_prefix_append_cons hmem hbegin).isInfix
      have hrest : ¬ fence <:+: l := fun hl ↦ h (List.infix_cons hl)
      rw [List.cons_append, beforeText, hno, ih hrest]
      simp [Option.map_map, Function.comp_def]

/-- The text in front of the first fence does not change with what follows it. -/
theorem exists_beforeText (h : fence <:+: s) :
    ∃ p, p ++ fence <+: s ∧ ∀ r, beforeText fence (s ++ r) = some p := by
  induction s with
  | nil => simp [fence_eq] at h
  | cons c s ih =>
      by_cases hpre : fence <+: c :: s
      · refine ⟨[], hpre, fun r ↦ ?_⟩
        have hfound : fence.isPrefixOf (c :: (s ++ r)) = true :=
          List.isPrefixOf_iff_prefix.mpr (hpre.trans (List.prefix_append (c :: s) r))
        rw [List.cons_append, beforeText, if_pos hfound]
      · obtain ⟨p, hp, hbefore⟩ := ih ((List.infix_cons_iff.mp h).resolve_left hpre)
        refine ⟨c :: p, by simpa using hp, fun r ↦ ?_⟩
        have hno : fence.isPrefixOf (c :: (s ++ r)) = false := by
          by_contra hfound
          have hlong : fence <+: (c :: s) ++ r :=
            List.isPrefixOf_iff_prefix.mp (by simpa using hfound)
          exact hpre (List.prefix_of_prefix_length_le hlong (List.prefix_append _ r) h.length_le)
        rw [List.cons_append, beforeText, hno, hbefore]
        rfl

/-- Up to the closing fence of a text whose inside holds none. -/
theorem beforeText_fenced {pre inner post : List Char} (hpre : tick ∉ pre)
    (hinner : ¬ fence <:+: inner) (hpost : tick ∉ post) :
    beforeText fence (pre ++ (inner ++ '}' :: post) ++ fence) =
      some (pre ++ (inner ++ '}' :: post)) := by
  have hend : beforeText fence fence = some [] := by decide
  rw [List.append_assoc, beforeText_append_of_notMem hpre, List.append_assoc, List.cons_append,
    beforeText_append_cons (by decide) hinner, beforeText_append_of_notMem hpost, hend]
  simp

/-! ## Reading a part of the reply -/

/-- The end of `json`, on the text that is left after stripping. -/
def reading (loads : String → Except PyError Json) (text : List Char) : Except PyError Json :=
  match loads (String.ofList text) with
  | .error .jsonDecodeError => bracketed loads text [('{', '}'), ('[', ']')]
  | result => result

theorem decoded_eq (text : List Char) : decoded loads model provider text =
    reading loads (unfence (stripChars isSpace text)) := by
  rw [decoded, LLMResponse.json, String.toList_ofList]
  rfl

theorem spaces_of_blank {w : List Char} (hw : Blank w) : Spaces w :=
  fun c hc ↦ isSpace_of_isBlank (hw c hc)

theorem notMem_of_spaces {w : List Char} (hw : Spaces w) {c : Char} (hc : isSpace c = false) :
    c ∉ w := fun h ↦ by simp [hw c h] at hc

theorem ne_of_spaces {w : List Char} (hw : Spaces w) {c d : Char} (hd : isSpace d = false)
    (hc : c ∈ w) : c ≠ d := by
  rintro rfl
  exact notMem_of_spaces hw hd hc

/-- The text of an object, as its parts. -/
theorem exists_object (h : ReadsJson loads) (hs : loads (String.ofList s) = .ok (.obj members)) :
    ∃ b inner b', s = b ++ ('{' :: (inner ++ ['}'])) ++ b' ∧ Blank b ∧ Blank b' ∧
      Derives .value ('{' :: (inner ++ ['}'])) ∧
      loads (String.ofList ('{' :: (inner ++ ['}']))) = .ok (.obj members) := by
  obtain ⟨b, v, b', rfl, hb, hv, hb'⟩ := exists_value ((h.accepts s).mp ⟨_, hs⟩)
  rw [h.blanks b v b' hb hv hb'] at hs
  obtain ⟨inner, rfl, -⟩ := object_of_value hv (h.objects v members hv hs)
  exact ⟨b, inner, b', rfl, hb, hb', hv, hs⟩

theorem rejected (h : ReadsJson loads) {t : List Char} (ht : ¬ IsText t) :
    loads (String.ofList t) = .error .jsonDecodeError := by
  cases hload : loads (String.ofList t) with
  | error e => rw [h.rejects t e hload]
  | ok v => exact absurd ((h.accepts t).mp ⟨v, hload⟩) ht

theorem outermost_object {a b inner : List Char} (ha : Spaces a) (hb : Spaces b) :
    outermost '{' '}' (a ++ ('{' :: (inner ++ ['}'])) ++ b) = some ('{' :: (inner ++ ['}'])) := by
  have hopen : ∀ c ∈ a, (c != '{') = true := fun c hc ↦
    bne_iff_ne.mpr (ne_of_spaces ha (by decide) hc)
  have hclose : ∀ c ∈ b, (c != '}') = true := fun c hc ↦
    bne_iff_ne.mpr (ne_of_spaces hb (by decide) hc)
  have hlast : ∀ c ∈ ('{' :: (inner ++ ['}'])).getLast?, (c != '}') = false := by
    rw [← List.cons_append, List.getLast?_concat]
    simp
  have hdrop : (a ++ ('{' :: (inner ++ ['}'])) ++ b).dropWhile (· != '{') =
      ('{' :: (inner ++ ['}'])) ++ b := by
    rw [List.append_assoc]
    exact dropWhile_append hopen (by simp)
  have hkept := rstripChars_append hclose hlast
  unfold rstripChars at hkept
  simp only [outermost, hdrop, hkept]
  simp

/-- An object with blank space around it is found, whether the text is JSON or not. -/
theorem reading_of_object (h : ReadsJson loads) {a b inner : List Char} (ha : Spaces a)
    (hb : Spaces b) (hvalue : Derives .value ('{' :: (inner ++ ['}'])))
    (hload : loads (String.ofList ('{' :: (inner ++ ['}']))) = .ok (.obj members)) :
    reading loads (a ++ ('{' :: (inner ++ ['}'])) ++ b) = .ok (.obj members) := by
  unfold reading
  by_cases htext : IsText (a ++ ('{' :: (inner ++ ['}'])) ++ b)
  · obtain ⟨w, v, w', hsplit, hw, hv, hw'⟩ := exists_value htext
    have hv' : v = '{' :: (inner ++ ['}']) := by
      obtain ⟨hne, hhead, hlast⟩ := tight_of_value hv
      obtain ⟨hne', hhead', hlast'⟩ := tight_of_value hvalue
      rw [← stripChars_append (spaces_of_blank hw) (spaces_of_blank hw') hne hhead hlast, ← hsplit]
      exact stripChars_append ha hb hne' hhead' hlast'
    rw [hsplit, h.blanks w v w' hw hv hw', hv', hload]
  · rw [rejected h htext]
    simp only [bracketed, outermost_object ha hb, hload]

/-- The beginning of an object text, with blanks in front, is no text. -/
theorem not_isText_of_cut {z t inner : List Char} (hz : Blank z)
    (hvalue : Derives .value ('{' :: (inner ++ ['}']))) (hhead : t.head? = some '{')
    (hbegin : t <+: '{' :: (inner ++ ['}'])) (hne : t ≠ '{' :: (inner ++ ['}'])) :
    ¬ IsText (z ++ t) := by
  intro htext
  obtain ⟨w, v, w', hsplit, hw, hv, hw'⟩ := exists_value htext
  have hdrop : t = v ++ w' := by
    obtain ⟨hnev, hheadv, -⟩ := tight_of_value hv
    have hfront : ∀ c ∈ (v ++ w').head?, isSpace c = false := by
      obtain ⟨c, rest, rfl⟩ := List.exists_cons_of_ne_nil hnev
      exact hheadv
    have hfrontT : ∀ c ∈ t.head?, isSpace c = false := by
      rw [hhead]
      rintro c ⟨⟩
      decide
    have hleft := dropWhile_append (spaces_of_blank hz) hfrontT
    have hright := dropWhile_append (spaces_of_blank hw) hfront
    rw [hsplit, List.append_assoc, hright] at hleft
    exact hleft.symm
  have hheadv : v.head? = some '{' := by
    obtain ⟨c, rest, rfl⟩ := List.exists_cons_of_ne_nil (tight_of_value hv).1
    simpa [hdrop] using hhead
  have hvt : v <+: t := hdrop ▸ List.prefix_append v w'
  have hwhole := eq_of_object_prefix hv hvalue hheadv (hvt.trans hbegin)
  exact hne (hbegin.eq_of_length_le (hwhole ▸ hvt.length_le))

theorem outermost_prefix {opener closer : Char} {text inner : List Char}
    (h : outermost opener closer text = some inner) :
    inner ≠ [] ∧ inner <+: text.dropWhile (· != opener) := by
  unfold outermost at h
  dsimp only at h
  split_ifs at h with hne
  obtain rfl := Option.some.inj h
  exact ⟨hne, prefix_rstripChars (· != closer) _⟩

/-- Nothing of a text that is cut off inside of an object is read as an object. -/
theorem reading_of_cut (h : ReadsJson loads) {z t inner : List Char} (hz : Blank z)
    (hvalue : Derives .value ('{' :: (inner ++ ['}']))) (hhead : t.head? = some '{')
    (hbegin : t <+: '{' :: (inner ++ ['}'])) (hne : t ≠ '{' :: (inner ++ ['}'])) :
    reading loads (z ++ t) ≠ .ok (.obj members) := by
  have hbraces : ∀ part, outermost '{' '}' (z ++ t) = some part →
      loads (String.ofList part) = .error .jsonDecodeError := by
    intro part hpart
    obtain ⟨hpartNe, hpartPrefix⟩ := outermost_prefix hpart
    have hdrop : (z ++ t).dropWhile (· != '{') = t :=
      dropWhile_append
        (fun c hc ↦ bne_iff_ne.mpr (ne_of_spaces (spaces_of_blank hz) (by decide) hc))
        (by simp [hhead])
    rw [hdrop] at hpartPrefix
    have hpartHead : part.head? = some '{' := by
      obtain ⟨c, rest, rfl⟩ := List.exists_cons_of_ne_nil hpartNe
      obtain ⟨tail, rfl⟩ := hpartPrefix
      simpa using hhead
    apply rejected h
    refine not_isText_of_cut (z := []) (List.forall_mem_nil _) hvalue hpartHead
      (hpartPrefix.trans hbegin) fun hwhole ↦ hne ?_
    exact hbegin.eq_of_length_le (hwhole ▸ hpartPrefix.length_le)
  have hsquare : ∀ part, outermost '[' ']' (z ++ t) = some part →
      loads (String.ofList part) ≠ .ok (.obj members) := by
    intro part hpart hload
    obtain ⟨hpartNe, hpartPrefix⟩ := outermost_prefix hpart
    obtain ⟨w, v, w', rfl, hw, hv, hw'⟩ := exists_value ((h.accepts part).mp ⟨_, hload⟩)
    rw [h.blanks w v w' hw hv hw'] at hload
    obtain ⟨rest, hrest⟩ := List.head?_eq_some_iff.mp (h.objects v members hv hload)
    -- the part starts with a square bracket, its value with a brace
    have hfirst : ∀ c ∈ (w ++ v ++ w').head?, c = '[' := by
      intro c hc
      have hcHead : c ∈ ((z ++ t).dropWhile (· != '[')).head? := by
        obtain ⟨tail, htail⟩ := hpartPrefix
        rw [← htail, List.head?_append, Option.mem_def.mp hc]
        rfl
      have hstop := List.head?_dropWhile_not (· != '[') (z ++ t)
      rw [Option.mem_def.mp hcHead] at hstop
      simpa using hstop
    cases w with
    | nil =>
        have hbrace := hfirst '{' (by simp [hrest])
        exact absurd hbrace (by decide)
    | cons c w =>
        have hopen := hfirst c (by simp)
        have hblank := hw c List.mem_cons_self
        rw [hopen] at hblank
        exact absurd hblank (by decide)
  have hlast : bracketed loads (z ++ t) [('[', ']')] ≠ .ok (.obj members) := by
    simp only [bracketed]
    cases hpart : outermost '[' ']' (z ++ t) with
    | none => simp
    | some part =>
        have hno := hsquare part hpart
        cases hload : loads (String.ofList part) with
        | error e =>
            obtain rfl := h.rejects part e hload
            simp only [hload]
            simp
        | ok v =>
            rw [hload] at hno
            simp only [hload]
            exact hno
  unfold reading
  rw [rejected h (not_isText_of_cut hz hvalue hhead hbegin hne)]
  rw [bracketed]
  cases hpart : outermost '{' '}' (z ++ t) with
  | none => exact hlast
  | some part =>
      simp only [hbraces part hpart]
      exact hlast

/-! ## Fenced replies -/

theorem head_fenced (x : List Char) : fence ++ x ++ fence ≠ [] ∧
    (∀ c ∈ (fence ++ x ++ fence).head?, isSpace c = false) ∧
    ∀ c ∈ (fence ++ x ++ fence).getLast?, isSpace c = false := by
  refine ⟨by simp [fence_eq], ?_, ?_⟩
  · rw [fence_eq]
    rintro c ⟨⟩
    decide
  · rw [List.getLast?_append, fence_eq]
    rintro c ⟨⟩
    decide

def isPadding (c : Char) : Bool := c.toNat == 96 || c == '\n' || c == ' '

/-- A fenced reply is read from what stands in front of the next fence. -/
theorem decoded_fenced {w w' x body : List Char} (hw : Spaces w) (hw' : Spaces w')
    (hbody : beforeText fence (x ++ fence) = some body) :
    decoded loads model provider (w ++ (fence ++ x ++ fence) ++ w') =
      reading loads (stripChars isPadding (removePrefix "json".toList body)) := by
  obtain ⟨hne, hhead, hlast⟩ := head_fenced x
  have hopen : fence.isPrefixOf (fence ++ x ++ fence) = true := by
    rw [List.isPrefixOf_iff_prefix, List.append_assoc]
    exact List.prefix_append _ _
  have hdrop : (fence ++ x ++ fence).drop 3 = x ++ fence := by
    rw [List.append_assoc]
    exact List.drop_left' (by decide)
  rw [decoded_eq, stripChars_append hw hw' hne hhead hlast, unfence, if_pos hopen, hdrop, hbody]
  rfl

theorem removePrefix_append (p l : List Char) : removePrefix p (p ++ l) = l := by
  simp [removePrefix, List.isPrefixOf_iff_prefix]

theorem removePrefix_json {a t : List Char} (ha : Spaces a) :
    removePrefix "json".toList (a ++ '{' :: t) = a ++ '{' :: t := by
  have hno : ¬ "json".toList <+: a ++ '{' :: t := by
    intro hpre
    have htext : "json".toList = ['j', 's', 'o', 'n'] := by simp
    rw [htext] at hpre
    cases a with
    | nil => exact absurd (List.cons_prefix_cons.mp hpre).1 (by decide)
    | cons c a =>
        have hc := (List.cons_prefix_cons.mp hpre).1
        exact ne_of_spaces ha (d := 'j') (by decide) List.mem_cons_self hc.symm
  rw [removePrefix, if_neg (by simpa [List.isPrefixOf_iff_prefix] using hno)]

/-- What is around the object in the fence is blank, before and after stripping. -/
theorem reading_fenced (h : ReadsJson loads) {a b inner : List Char} (ha : Spaces a)
    (hb : Spaces b) (hvalue : Derives .value ('{' :: (inner ++ ['}'])))
    (hload : loads (String.ofList ('{' :: (inner ++ ['}']))) = .ok (.obj members)) :
    reading loads (stripChars isPadding (a ++ '{' :: (inner ++ '}' :: b))) = .ok (.obj members) := by
  obtain ⟨a', b', ha', hb', hstrip⟩ := exists_stripChars_between (p := isPadding) (c := '{')
    (d := '}') (by decide) (by decide) a inner b
  have hsplit : a' ++ '{' :: (inner ++ '}' :: b') = a' ++ ('{' :: (inner ++ ['}'])) ++ b' := by simp
  rw [hstrip, hsplit]
  exact reading_of_object h (fun c hc ↦ ha c (ha'.subset hc)) (fun c hc ↦ hb c (hb'.subset hc))
    hvalue hload

/-- A text in front of a fence goes past what holds no backtick. -/
theorem append_of_prefix_fence {l r p : List Char} (hl : tick ∉ l) (h : p ++ fence <+: l ++ r) :
    ∃ q, p = l ++ q ∧ q ++ fence <+: r := by
  induction l generalizing p with
  | nil => exact ⟨p, rfl, h⟩
  | cons c l ih =>
      rw [List.mem_cons, not_or] at hl
      cases p with
      | nil =>
          rw [List.nil_append, fence_eq, List.cons_append] at h
          exact absurd (List.cons_prefix_cons.mp h).1 hl.1
      | cons d p =>
          rw [List.cons_append, List.cons_append] at h
          obtain ⟨rfl, hrest⟩ := List.cons_prefix_cons.mp h
          obtain ⟨q, rfl, hq⟩ := ih hl.2 hrest
          exact ⟨q, rfl, hq⟩

/-- A fence in the text of an object stands inside of the object. -/
theorem cut_of_fence {b inner b' p : List Char} (hb : Spaces b) (hb' : Spaces b')
    (h : p ++ fence <+: b ++ ('{' :: (inner ++ ['}'])) ++ b') :
    ∃ t, p = b ++ '{' :: t ∧ t <+: inner ++ ['}'] ∧ t.length < (inner ++ ['}']).length := by
  rw [List.append_assoc] at h
  obtain ⟨q, rfl, hq⟩ := append_of_prefix_fence (notMem_of_spaces hb (by decide)) h
  obtain ⟨t, rfl, ht⟩ := append_of_prefix_fence (l := ['{']) (by decide) hq
  have hlonger : ∀ k, t = inner ++ ['}'] ++ k → False := by
    rintro k rfl
    rw [List.append_assoc] at ht
    have hk := (List.prefix_append_right_inj (inner ++ ['}'])).mp ht
    have htick : tick ∈ k ++ fence := by simp [fence_eq]
    exact notMem_of_spaces hb' (by decide) (hk.subset htick)
  have hstart : t <+: inner ++ ['}'] ++ b' := (List.prefix_append t fence).trans ht
  refine ⟨t, rfl, ?_⟩
  rcases List.prefix_or_prefix_of_prefix hstart (List.prefix_append _ b') with hshort | ⟨k, hk⟩
  · refine ⟨hshort, lt_of_le_of_ne hshort.length_le fun hlen ↦ hlonger [] ?_⟩
    rw [List.append_nil, hshort.eq_of_length hlen]
  · exact absurd hk.symm (hlonger k)

/-- Bare and fenced, the text without a fence of its own gives its object. -/
theorem decodes_of_no_fence (h : ReadsJson loads)
    (hs : loads (String.ofList s) = .ok (.obj members)) (hno : ¬ fence <:+: s) :
    Decodes loads model provider s members := by
  obtain ⟨b, inner, b', rfl, hb, hb', hvalue, hload⟩ := exists_object h hs
  have hSpaces : ∀ {u v : List Char}, Spaces u → Spaces v → Spaces (u ++ v) :=
    fun hu hv c hc ↦ (List.mem_append.mp hc).elim (hu c) (hv c)
  have hinner : ¬ fence <:+: inner := fun hin ↦ hno (hin.trans ⟨b ++ ['{'], ['}'] ++ b', by simp⟩)
  have hfenced : ∀ tag a e : List Char, tick ∉ tag → Spaces a → Spaces e →
      beforeText fence (tag ++ a ++ (b ++ ('{' :: (inner ++ ['}'])) ++ b') ++ e ++ fence) =
        some (tag ++ ((a ++ b) ++ '{' :: (inner ++ '}' :: (b' ++ e)))) := by
    intro tag a e htag ha he
    have hpre : tick ∉ tag ++ (a ++ b) ++ ['{'] := by
      simp only [List.mem_append, not_or]
      exact ⟨⟨htag, notMem_of_spaces ha (by decide),
        notMem_of_spaces (spaces_of_blank hb) (by decide)⟩, by decide⟩
    have hpost : tick ∉ b' ++ e :=
      notMem_of_spaces (hSpaces (spaces_of_blank hb') he) (by decide)
    simpa using beforeText_fenced hpre hinner hpost
  refine ⟨?_, ?_, ?_⟩
  · intro w w' hw hw'
    obtain ⟨hne, hhead, hlast⟩ := tight_of_value hvalue
    have hstrip := stripChars_append (hSpaces hw (spaces_of_blank hb))
      (hSpaces (spaces_of_blank hb') hw') hne hhead hlast
    have hsplit : w ++ (b ++ ('{' :: (inner ++ ['}'])) ++ b') ++ w' =
        w ++ b ++ ('{' :: (inner ++ ['}'])) ++ (b' ++ w') := by simp
    have hbare := not_fence_of_ne (c := '{') (by decide) (inner ++ ['}'])
    have hread := reading_of_object h (a := []) (b := []) (List.forall_mem_nil _)
      (List.forall_mem_nil _) hvalue hload
    rw [decoded_eq, hsplit, hstrip, unfence, hbare]
    simpa using hread
  · intro w w' a e hw hw' ha he
    have hbody := hfenced "json".toList a e (by simp; decide) ha he
    have hassoc : fence ++ "json".toList ++ a ++ (b ++ ('{' :: (inner ++ ['}'])) ++ b') ++ e =
        fence ++ ("json".toList ++ a ++ (b ++ ('{' :: (inner ++ ['}'])) ++ b') ++ e) := by
      simp only [List.append_assoc]
    rw [hassoc, decoded_fenced hw hw' hbody, removePrefix_append]
    exact reading_fenced h (hSpaces ha (spaces_of_blank hb)) (hSpaces (spaces_of_blank hb') he)
      hvalue hload
  · intro w w' a e hw hw' ha he
    have hbody := hfenced [] a e (by simp) ha he
    have hassoc : fence ++ a ++ (b ++ ('{' :: (inner ++ ['}'])) ++ b') ++ e =
        fence ++ ([] ++ a ++ (b ++ ('{' :: (inner ++ ['}'])) ++ b') ++ e) := by
      simp only [List.append_assoc, List.nil_append]
    have hSpacesFront := hSpaces ha (spaces_of_blank hb)
    rw [hassoc, decoded_fenced hw hw' hbody, List.nil_append, removePrefix_json hSpacesFront]
    exact reading_fenced h hSpacesFront (hSpaces (spaces_of_blank hb') he) hvalue hload

/-- In a fence, a text with a fence of its own is cut off inside of the object. -/
theorem not_decoded_of_fence (h : ReadsJson loads)
    (hs : loads (String.ofList s) = .ok (.obj members)) (hfence : fence <:+: s) :
    decoded loads model provider (fence ++ s ++ fence) ≠ .ok (.obj members) := by
  obtain ⟨p, hp, hbefore⟩ := exists_beforeText hfence
  obtain ⟨b, inner, b', rfl, hb, hb', hvalue, -⟩ := exists_object h hs
  obtain ⟨t, rfl, hbegin, hlen⟩ := cut_of_fence (spaces_of_blank hb) (spaces_of_blank hb') hp
  have hnone : Spaces [] := List.forall_mem_nil _
  have hread : decoded loads model provider ([] ++ (fence ++ _ ++ fence) ++ []) = _ :=
    decoded_fenced hnone hnone (hbefore fence)
  rw [List.nil_append, List.append_nil, removePrefix_json (spaces_of_blank hb)] at hread
  obtain ⟨z, t', hz, ht', hstrip⟩ := exists_stripChars (p := isPadding) (c := '{') (by decide) b t
  rw [hread, hstrip]
  refine reading_of_cut h (fun c hc ↦ hb c (hz.subset hc)) hvalue rfl ?_ fun heq ↦ ?_
  · exact List.cons_prefix_cons.mpr ⟨rfl, ht'.trans hbegin⟩
  · have htail := congrArg List.length (List.cons.inj heq).2
    have hshort := ht'.length_le
    omega

/-! ## A reader -/

/-- An object with a code fence in its only string. -/
def quotedFence : List Char := ['{', '"', 'a', '"', ':', '"', tick, tick, tick, '"', '}']

/-- The values of two texts, and a null for the others. -/
def valueOf (t : List Char) : Json :=
  if t = ['{', '}'] then .obj []
  else if t = quotedFence then .obj [("a", .str (String.ofList fence))] else .null

open Classical in
/-- A reader of the valid texts. -/
noncomputable def loadsText (text : String) : Except PyError Json :=
  if IsText text.toList then .ok (valueOf (stripChars isSpace text.toList))
  else .error .jsonDecodeError

theorem loadsText_of_value {w t w' : List Char} (hw : Blank w) (ht : Derives .value t)
    (hw' : Blank w') : loadsText (String.ofList (w ++ t ++ w')) = .ok (valueOf t) := by
  obtain ⟨hne, hhead, hlast⟩ := tight_of_value ht
  have htext : IsText (w ++ t ++ w') := Derives.element hw ht hw'
  rw [loadsText, String.toList_ofList, if_pos htext,
    stripChars_append (spaces_of_blank hw) (spaces_of_blank hw') hne hhead hlast]

theorem loadsText_value {t : List Char} (ht : Derives .value t) :
    loadsText (String.ofList t) = .ok (valueOf t) := by
  simpa using loadsText_of_value (List.forall_mem_nil _) ht (List.forall_mem_nil _)

theorem readsJson_loadsText : ReadsJson loadsText where
  accepts t := by
    rw [loadsText, String.toList_ofList]
    by_cases ht : IsText t <;> simp [ht]
  rejects t e he := by
    rw [loadsText, String.toList_ofList] at he
    by_cases ht : IsText t
    · simp [ht] at he
    · rw [if_neg ht] at he
      exact (Except.error.inj he).symm
  blanks w t w' hw ht hw' := by rw [loadsText_of_value hw ht hw', loadsText_value ht]
  objects t members ht hload := by
    rw [loadsText_value ht, valueOf] at hload
    split_ifs at hload with hempty hquoted
    · rw [hempty]
      rfl
    · rw [hquoted]
      rfl
    · simp at hload

theorem derives_empty : Derives .value ['{', '}'] := Derives.emptyObject (List.forall_mem_nil _)

theorem derives_quotedFence : Derives .value quotedFence := by
  have hnone : Blank [] := List.forall_mem_nil _
  have hticks : Characters [tick, tick, tick] :=
    .plain (by decide) (.plain (by decide) (.plain (by decide) .nil))
  have helement : Derives .element ('"' :: [tick, tick, tick] ++ ['"']) := by
    simpa using Derives.element hnone (.string hticks) hnone
  exact .object (.lastMember (.member hnone (.plain (by decide) .nil) hnone helement))

/-- A reply gives the object of its text, bare and fenced, exactly when the text holds no fence. -/
theorem decodes_iff (h : ReadsJson loads) (hs : loads (String.ofList s) = .ok (.obj members)) :
    Decodes loads model provider s members ↔ ¬ fence <:+: s := by
  constructor
  · intro hdecodes hfence
    exact not_decoded_of_fence h hs hfence hdecodes.fenced
  · exact decodes_of_no_fence h hs

theorem decodes_iff_empty : Decodes loadsText "llama3" "ollama" ['{', '}'] [] ↔
    ¬ fence <:+: ['{', '}'] :=
  decodes_iff readsJson_loadsText (loadsText_value derives_empty)

/-- A string that quotes a code fence breaks the fence around its object. -/
theorem not_decodes_quotedFence :
    ReadsJson loadsText ∧
      loadsText (String.ofList quotedFence) = .ok (.obj [("a", .str (String.ofList fence))]) ∧
      ¬ Decodes loadsText "llama3" "ollama" quotedFence [("a", .str (String.ofList fence))] := by
  have hload : loadsText (String.ofList quotedFence) =
      .ok (.obj [("a", .str (String.ofList fence))]) := loadsText_value derives_quotedFence
  have hfence : fence <:+: quotedFence := ⟨['{', '"', 'a', '"', ':', '"'], ['"', '}'], by decide⟩
  refine ⟨readsJson_loadsText, hload, fun hdecodes ↦ ?_⟩
  exact not_decoded_of_fence readsJson_loadsText hload hfence hdecodes.fenced

end Vantage.Ai
