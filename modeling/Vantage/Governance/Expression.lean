import Vantage.Governance.Policy

/-!
# License expressions

Expression trees over license identifiers, their SPDX text, and what the
text split makes of it: the split sees the words of the text and the
parentheses around them, but not how the parentheses pair up.
-/

namespace Vantage.Governance

open Text AndOr

/-- A license identifier: a word without blanks and parentheses that is not a keyword. -/
structure LicenseId where
  text : String
  text_ne : text ≠ ""
  plain : ∀ c ∈ text.toList, isSpace c = false ∧ isParen c = false
  not_or : text.toList.map Char.toUpper ≠ "OR".toList
  not_and : text.toList.map Char.toUpper ≠ "AND".toList

def opText : Op → List Char
  | .and => andSep
  | .or => orSep

def keyword : Op → List Char
  | .and => "AND".toList
  | .or => "OR".toList

theorem opText_eq (op : Op) : opText op = ' ' :: (keyword op ++ [' ']) := by
  cases op <;> decide

theorem space_notMem_keyword (op : Op) : ' ' ∉ keyword op := by
  cases op <;> decide

theorem map_toUpper_keyword (op : Op) : (keyword op).map Char.toUpper = keyword op := by
  cases op <;> decide

theorem keyword_injective : Function.Injective keyword := by
  intro op o h
  cases op <;> cases o <;> simp_all [keyword]

theorem LicenseId.ne_keyword (a : LicenseId) (op : Op) :
    a.text.toList.map Char.toUpper ≠ keyword op := by
  cases op with
  | and => exact a.not_and
  | or => exact a.not_or

def isOr : Expr LicenseId → Bool
  | .node .or _ _ => true
  | _ => false

/-- Parentheses around an operand of AND, where it is an OR. -/
def parenthesize (e : Expr LicenseId) (text : List Char) : List Char :=
  if isOr e then '(' :: text ++ [')'] else text

/-- The text of an expression; AND binds tighter than OR. -/
def render : Expr LicenseId → List Char
  | .atom a => a.text.toList
  | .node .or l r => render l ++ orSep ++ render r
  | .node .and l r => parenthesize l (render l) ++ andSep ++ parenthesize r (render r)

/-- The class of an identifier by the table. -/
def LicensePolicy.classOf (policy : LicensePolicy) (a : LicenseId) : LicenseClass :=
  (policy.spdxToClass (lower a.text)).getD .unknown

/-- The meaning of an expression: the least severe operand at OR, the most severe at AND. -/
def LicensePolicy.meaning (policy : LicensePolicy) (e : Expr LicenseId) : LicenseClass :=
  e.eval policy.classOf

/-! ## Words -/

/-- An identifier with the parentheses before and after it. -/
structure Word where
  opens : ℕ
  id : LicenseId
  closes : ℕ

namespace Word

def text (w : Word) : List Char :=
  List.replicate w.opens '(' ++ w.id.text.toList ++ List.replicate w.closes ')'

def openOne (w : Word) : Word := { w with opens := w.opens + 1 }

def closeOne (w : Word) : Word := { w with closes := w.closes + 1 }

def dropOpens (w : Word) : Word := { w with opens := 0 }

def dropCloses (w : Word) : Word := { w with closes := 0 }

theorem idText_ne_nil (a : LicenseId) : a.text.toList ≠ [] := fun h ↦
  a.text_ne (by simpa using h)

theorem text_ne_nil (w : Word) : w.text ≠ [] := by
  simp only [text, ne_eq, List.append_eq_nil_iff, not_and]
  exact fun h ↦ (idText_ne_nil w.id h.2).elim

theorem not_isSpace {w : Word} {c : Char} (h : c ∈ w.text) : isSpace c = false := by
  simp only [text, List.mem_append, List.mem_replicate] at h
  rcases h with (⟨-, rfl⟩ | h) | ⟨-, rfl⟩
  · decide
  · exact (w.id.plain c h).1
  · decide

theorem space_notMem (w : Word) : ' ' ∉ w.text := fun h ↦
  absurd (not_isSpace h) (by decide)

/-- No word reads as a keyword. -/
theorem map_toUpper_ne (w : Word) (op : Op) : w.text.map Char.toUpper ≠ keyword op := by
  intro h
  have hparen : '(' ∉ keyword op ∧ ')' ∉ keyword op := by
    cases op <;> decide
  have hup : '('.toUpper = '(' ∧ ')'.toUpper = ')' := by decide
  obtain ⟨opens, id, closes⟩ := w
  cases opens with
  | succ n =>
      apply hparen.1
      rw [← h]
      simp [text, List.replicate_succ, hup]
  | zero =>
      cases closes with
      | succ n =>
          apply hparen.2
          rw [← h]
          simp [text, List.replicate_succ, hup]
      | zero => exact id.ne_keyword op (by simpa [text] using h)

end Word

/-! ## The text of a chain of words -/

def chainText (c : Chain Word) : List Char :=
  c.head.text ++ c.tail.flatMap fun x ↦ opText x.1 ++ x.2.text

theorem chainText_cons (a b : Word) (o : Op) (rest : List (Op × Word)) :
    chainText ⟨a, (o, b) :: rest⟩ = a.text ++ (opText o ++ chainText ⟨b, rest⟩) := by
  simp [chainText]

theorem chainText_append (op : Op) (c d : Chain Word) :
    chainText (c.append op d) = chainText c ++ opText op ++ chainText d := by
  simp [chainText, Chain.append]

theorem chainText_mapHead (f : Word → Word) (c : Chain Word) :
    chainText (c.mapHead f) = (f c.head).text ++ c.tail.flatMap fun x ↦ opText x.1 ++ x.2.text :=
  rfl

theorem exists_chainText_eq_last (c : Chain Word) : ∃ l : List Char,
    chainText c = l ++ c.last.text ∧ ∀ f, chainText (c.mapLast f) = l ++ (f c.last).text := by
  obtain ⟨a, tail⟩ := c
  simp only [Chain.last, Chain.mapLast]
  induction tail generalizing a with
  | nil => exact ⟨[], by simp [chainText, Chain.lastFrom], fun f ↦ by
      simp [chainText, Chain.mapLastFrom, Chain.lastFrom]⟩
  | cons x rest ih =>
      obtain ⟨o, b⟩ := x
      obtain ⟨l, hl, hf⟩ := ih b
      refine ⟨a.text ++ opText o ++ l, ?_, fun f ↦ ?_⟩
      · rw [chainText_cons, hl]
        simp [Chain.lastFrom]
      · simp only [Chain.mapLastFrom, chainText_cons, hf, Chain.lastFrom, List.append_assoc]

/-- The chain of words of an expression. -/
def words : Expr LicenseId → Chain Word
  | .atom a => .single ⟨0, a, 0⟩
  | .node .or l r => .append .or (words l) (words r)
  | .node .and l r => .append .and (wrap l (words l)) (wrap r (words r))
where
  wrap (e : Expr LicenseId) (c : Chain Word) : Chain Word :=
    if isOr e then (c.mapHead Word.openOne).mapLast Word.closeOne else c

theorem chainText_paren (c : Chain Word) :
    chainText ((c.mapHead Word.openOne).mapLast Word.closeOne) = '(' :: chainText c ++ [')'] := by
  obtain ⟨l, hl, hf⟩ := exists_chainText_eq_last (c.mapHead Word.openOne)
  have hopen : chainText (c.mapHead Word.openOne) = '(' :: chainText c := by
    rw [chainText_mapHead, chainText]
    simp [Word.text, Word.openOne, List.replicate_succ]
  have hclose : (Word.closeOne (c.mapHead Word.openOne).last).text =
      (c.mapHead Word.openOne).last.text ++ [')'] := by
    simp [Word.text, Word.closeOne, List.replicate_succ']
  rw [hf, hclose, ← List.append_assoc, ← hl, hopen]

theorem chainText_wrap (e : Expr LicenseId) (c : Chain Word) :
    chainText (words.wrap e c) = parenthesize e (chainText c) := by
  unfold words.wrap parenthesize
  split_ifs
  · exact chainText_paren c
  · rfl

theorem chainText_words (e : Expr LicenseId) : chainText (words e) = render e := by
  induction e with
  | atom a => simp [words, Chain.single, chainText, Word.text, render]
  | node op l r ihl ihr =>
      cases op with
      | or => rw [words, chainText_append, ihl, ihr, render, opText]
      | and => rw [words, chainText_append, chainText_wrap, chainText_wrap, ihl, ihr, render, opText]

theorem map_id_wrap (e : Expr LicenseId) (c : Chain Word) :
    (words.wrap e c).map Word.id = c.map Word.id := by
  unfold words.wrap
  split_ifs
  · rw [Chain.map_mapLast Word.closeOne Word.id fun _ ↦ rfl,
      Chain.map_mapHead Word.openOne Word.id fun _ ↦ rfl]
  · rfl

/-- The identifiers and operators of the text are those of the erased expression. -/
theorem map_id_words (e : Expr LicenseId) : (words e).map Word.id = e.flat := by
  induction e with
  | atom a => rfl
  | node op l r ihl ihr =>
      cases op with
      | or => rw [words, Chain.map_append, ihl, ihr, Expr.flat]
      | and => rw [words, Chain.map_append, map_id_wrap, map_id_wrap, ihl, ihr, Expr.flat]

/-! ## Splitting the text of a chain -/

theorem flatMap_opText_head (rest : List (Op × Word)) :
    rest.flatMap (fun x ↦ opText x.1 ++ x.2.text) = [] ∨
      (rest.flatMap fun x ↦ opText x.1 ++ x.2.text).head? = some ' ' := by
  cases rest with
  | nil => exact Or.inl rfl
  | cons x rest => exact Or.inr (by simp [opText_eq])

theorem not_matchesCI_chainText (op : Op) (b : Word) (rest : List (Op × Word)) :
    matchesCI (opText op) (' ' :: chainText ⟨b, rest⟩) = false := by
  rw [opText_eq]
  exact not_matchesCI_of_word (space_notMem_keyword op) b.space_notMem (b.map_toUpper_ne op)
    (flatMap_opText_head rest)

/-- The other operator is passed over. -/
theorem splitFrom_append_other {op o : Op} (h : o ≠ op) (acc : List Char) (b : Word)
    (rest : List (Op × Word)) :
    splitFrom (opText op) 0 acc (opText o ++ chainText ⟨b, rest⟩) =
      splitFrom (opText op) 0 ((opText o).reverse ++ acc) (chainText ⟨b, rest⟩) := by
  have hfirst : ∀ l, matchesCI (opText op) (' ' :: (keyword o ++ ' ' :: l)) = false := by
    intro l
    rw [opText_eq]
    refine not_matchesCI_of_word (space_notMem_keyword op) (space_notMem_keyword o) ?_
      (Or.inr rfl)
    rw [map_toUpper_keyword]
    exact fun hkey ↦ h (keyword_injective hkey)
  have hlast := not_matchesCI_chainText op b rest
  have ho : opText o ++ chainText ⟨b, rest⟩ =
      ' ' :: (keyword o ++ ' ' :: chainText ⟨b, rest⟩) := by
    simp [opText_eq]
  rw [ho, splitFrom_cons_of_not_matches (hfirst _)]
  have hword := splitFrom_append_word (keyword op ++ [' ']) (space_notMem_keyword o)
    (' ' :: acc) (' ' :: chainText ⟨b, rest⟩)
  rw [← opText_eq] at hword
  rw [hword, splitFrom_cons_of_not_matches hlast]
  simp [opText_eq]

theorem opText_map_toUpper (op : Op) : (opText op).map Char.toUpper = opText op := by
  cases op <;> decide

theorem opText_ne_nil (op : Op) : opText op ≠ [] := by
  cases op <;> decide

theorem splitFrom_chainText (op : Op) (a : Word) (tail : List (Op × Word)) (acc : List Char) :
    ∃ d ds, Chain.cutFrom op a tail = d :: ds ∧ splitFrom (opText op) 0 acc (chainText ⟨a, tail⟩) =
      (acc.reverse ++ chainText d) :: ds.map chainText := by
  obtain ⟨sep, hsep⟩ : ∃ sep, opText op = ' ' :: sep := by
    cases op <;> exact ⟨_, rfl⟩
  induction tail generalizing a acc with
  | nil =>
      refine ⟨⟨a, []⟩, [], rfl, ?_⟩
      have hword := splitFrom_append_word sep a.space_notMem acc []
      rw [List.append_nil] at hword
      simp [chainText, hsep, hword, splitFrom]
  | cons x rest ih =>
      obtain ⟨o, b⟩ := x
      obtain ⟨d, ds, hcut, hhead, heq⟩ := Chain.cutFrom_cons op o a b rest
      rw [heq, chainText_cons, hsep, splitFrom_append_word sep a.space_notMem, ← hsep]
      split_ifs with ho
      · subst ho
        obtain ⟨d', ds', hcut', hsplit⟩ := ih b []
        obtain ⟨rfl, rfl⟩ := List.cons.inj (hcut.symm.trans hcut')
        refine ⟨_, _, rfl, ?_⟩
        rw [splitFrom_append_sep (opText_map_toUpper o) (opText_ne_nil o), hsplit]
        simp [chainText]
      · obtain ⟨d', ds', hcut', hsplit⟩ := ih b ((opText o).reverse ++ (a.text.reverse ++ acc))
        obtain ⟨rfl, rfl⟩ := List.cons.inj (hcut.symm.trans hcut')
        refine ⟨_, _, rfl, ?_⟩
        rw [splitFrom_append_other ho, hsplit]
        obtain ⟨dh, dt⟩ := d
        obtain rfl : dh = b := hhead
        simp [chainText]

/-- The split cuts the chain of words at the operator. -/
theorem splitCI_chainText (op : Op) (c : Chain Word) :
    splitCI (opText op) (chainText c) = (c.cutAt op).map chainText := by
  obtain ⟨d, ds, hcut, hsplit⟩ := splitFrom_chainText op c.head c.tail []
  rw [splitCI, Chain.cutAt, hcut]
  exact hsplit

theorem containsCI_chainText (op : Op) (c : Chain Word) :
    containsCI (opText op) (chainText c) = true ↔ op ∈ c.ops := by
  have hsplit := splitCI_chainText op c
  rw [splitCI] at hsplit
  rw [containsCI_iff_splitFrom (opText_ne_nil op) [], hsplit]
  constructor
  · rintro ⟨p, q, ps, heq⟩
    by_contra hop
    rw [Chain.cutAt_eq_self hop] at heq
    simp at heq
  · intro hop
    obtain ⟨d, e, ds, hcut⟩ := Chain.exists_cutAt_eq_cons_cons hop
    exact ⟨_, _, _, by rw [hcut]; rfl⟩

/-! ## The pieces of a split -/

/-- The chain without the parentheses at its two ends. -/
def trim (c : Chain Word) : Chain Word := (c.mapHead Word.dropOpens).mapLast Word.dropCloses

theorem map_id_trim (c : Chain Word) : (trim c).map Word.id = c.map Word.id := by
  rw [trim, Chain.map_mapLast Word.dropCloses Word.id fun _ ↦ rfl,
    Chain.map_mapHead Word.dropOpens Word.id fun _ ↦ rfl]

theorem stripChars_isSpace_chainText (c : Chain Word) :
    stripChars isSpace (chainText c) = chainText c := by
  obtain ⟨l, hl, -⟩ := exists_chainText_eq_last c
  apply stripChars_eq_self
  · intro x hx
    rw [chainText, List.head?_append_of_ne_nil _ c.head.text_ne_nil] at hx
    exact Word.not_isSpace (List.mem_of_head? hx)
  · intro x hx
    rw [hl, List.getLast?_append_of_ne_nil _ c.last.text_ne_nil] at hx
    exact Word.not_isSpace (List.mem_of_getLast? hx)

theorem stripChars_isParen_chainText (c : Chain Word) :
    stripChars isParen (chainText c) = chainText (trim c) := by
  have hparen : ∀ n p, isParen p = true → ∀ x ∈ List.replicate n p, isParen x = true := by
    intro n p hp x hx
    rwa [(List.mem_replicate.mp hx).2]
  have hopen : (chainText c).dropWhile isParen = chainText (c.mapHead Word.dropOpens) := by
    have htext : chainText c =
        List.replicate c.head.opens '(' ++ chainText (c.mapHead Word.dropOpens) := by
      rw [chainText_mapHead, chainText]
      simp [Word.text, Word.dropOpens]
    rw [htext]
    refine dropWhile_append (hparen _ '(' rfl) fun x hx ↦ ?_
    have hhead : x ∈ c.head.id.text.toList.head? := by
      rw [chainText_mapHead] at hx
      simpa [Word.text, Word.dropOpens, List.head?_append_of_ne_nil _ (Word.idText_ne_nil _)]
        using hx
    exact (c.head.id.plain x (List.mem_of_head? hhead)).2
  rw [stripChars, hopen, trim]
  generalize c.mapHead Word.dropOpens = d
  obtain ⟨l, hl, hf⟩ := exists_chainText_eq_last d
  have htext : d.last.text = d.last.dropCloses.text ++ List.replicate d.last.closes ')' := by
    simp [Word.text, Word.dropCloses]
  rw [hl, hf, htext, ← List.append_assoc]
  refine rstripChars_append (hparen _ ')' rfl) fun x hx ↦ ?_
  have hdrop : d.last.dropCloses.text =
      List.replicate d.last.opens '(' ++ d.last.id.text.toList := by
    simp [Word.text, Word.dropCloses]
  rw [hdrop, ← List.append_assoc, List.getLast?_append_of_ne_nil _ (Word.idText_ne_nil _)] at hx
  exact (d.last.id.plain x (List.mem_of_getLast? hx)).2

theorem chainText_ne_nil (c : Chain Word) : chainText c ≠ [] := by
  simp [chainText, Word.text_ne_nil]

/-- The operands that `classify` recurses on. -/
theorem split_chainText (op : Op) (c : Chain Word) :
    split (chainText c) (opText op) = (c.cutAt op).map fun d ↦ chainText (trim d) := by
  unfold split
  rw [splitCI_chainText, List.filter_eq_self.mpr, List.map_map]
  · refine List.map_congr_left fun d _ ↦ ?_
    simp only [Function.comp_apply, stripChars_isSpace_chainText, stripChars_isParen_chainText]
  · intro p hp
    obtain ⟨d, -, rfl⟩ := List.mem_map.mp hp
    simp [stripChars_isSpace_chainText, chainText_ne_nil]

/-! ## Outcomes -/

/-- A decision of the given class under the condition, an error otherwise. -/
def Decides (r : Except PyError PolicyDecision) (ok : Prop) (cls : LicenseClass) : Prop :=
  (ok → ∃ d, r = .ok d ∧ d.licenseClass = cls) ∧ (¬ ok → ∃ e, r = .error e)

theorem Decides.congr {r : Except PyError PolicyDecision} {ok ok' : Prop} {cls cls' : LicenseClass}
    (h : Decides r ok cls) (hok : ok ↔ ok') (hcls : cls = cls') : Decides r ok' cls' := by
  subst hcls
  rwa [Decides, ← hok]

/-- A decision keeps its class when its other fields are written anew. -/
theorem Decides.bind {r : Except PyError PolicyDecision} {ok : Prop} {cls : LicenseClass}
    (h : Decides r ok cls) {g : PolicyDecision → PolicyDecision}
    (hg : ∀ d, (g d).licenseClass = d.licenseClass) :
    Decides (do let d ← r; .ok (g d)) ok cls := by
  refine ⟨fun hok ↦ ?_, fun hok ↦ ?_⟩
  · obtain ⟨d, rfl, hd⟩ := h.1 hok
    exact ⟨g d, rfl, (hg d).trans hd⟩
  · obtain ⟨e, rfl⟩ := h.2 hok
    exact ⟨e, rfl⟩

theorem exists_leastSevere {ds : List PolicyDecision} (hne : ds ≠ []) :
    ∃ d, leastSevere ds = .ok d ∧
      d.licenseClass = (ds.map PolicyDecision.licenseClass).foldr (· ⊓ ·) ⊤ := by
  obtain ⟨d, ds, rfl⟩ := List.exists_cons_of_ne_nil hne
  refine ⟨_, rfl, ?_⟩
  simp only [List.map_cons, List.foldr_cons]
  induction ds generalizing d with
  | nil => simp
  | cons d' ds ih =>
      rw [List.foldl_cons, ih _ (by simp), List.map_cons, List.foldr_cons, ← inf_assoc]
      congr 1
      split_ifs with hlt
      · exact (min_eq_right (severity_lt_iff.mp hlt).le).symm
      · exact (min_eq_left (not_lt.mp fun h ↦ hlt (severity_lt_iff.mpr h))).symm

theorem exists_mostSevere {ds : List PolicyDecision} (hne : ds ≠ []) :
    ∃ d, mostSevere ds = .ok d ∧
      d.licenseClass = (ds.map PolicyDecision.licenseClass).foldr (· ⊔ ·) ⊥ := by
  obtain ⟨d, ds, rfl⟩ := List.exists_cons_of_ne_nil hne
  refine ⟨_, rfl, ?_⟩
  simp only [List.map_cons, List.foldr_cons]
  induction ds generalizing d with
  | nil => simp
  | cons d' ds ih =>
      rw [List.foldl_cons, ih _ (by simp), List.map_cons, List.foldr_cons, ← sup_assoc]
      congr 1
      split_ifs with hlt
      · exact (max_eq_right (severity_lt_iff.mp hlt).le).symm
      · exact (max_eq_left (not_lt.mp fun h ↦ hlt (severity_lt_iff.mpr h))).symm

section Operands

variable {γ : Type} {pieces : List γ} {f : γ → Except PyError PolicyDecision} {ok : γ → Prop}
  {val : γ → LicenseClass}

theorem exists_mapM_of_decides (h : ∀ p ∈ pieces, Decides (f p) (ok p) (val p))
    (hok : ∀ p ∈ pieces, ok p) : ∃ ds, pieces.mapM f = .ok ds ∧ ds.length = pieces.length ∧
      ds.map PolicyDecision.licenseClass = pieces.map val := by
  have hall : ∀ p ∈ pieces, ∃ d, f p = .ok d := fun p hp ↦ by
    obtain ⟨d, hd, -⟩ := (h p hp).1 (hok p hp)
    exact ⟨d, hd⟩
  obtain ⟨ds, hds, hforall⟩ := ExceptList.exists_mapM_eq_ok hall
  refine ⟨ds, hds, hforall.length_eq.symm, ?_⟩
  clear hds hall
  induction hforall with
  | nil => rfl
  | @cons p d pieces ds hp _ ih =>
      obtain ⟨d', hd', hcls⟩ := (h p (by simp)).1 (hok p (by simp))
      obtain rfl : d = d' := Except.ok.inj (hp.symm.trans hd')
      rw [List.map_cons, List.map_cons, hcls, ih (fun q hq ↦ h q (List.mem_cons_of_mem p hq))
        fun q hq ↦ hok q (List.mem_cons_of_mem p hq)]

theorem exists_mapM_error_of_decides (h : ∀ p ∈ pieces, Decides (f p) (ok p) (val p))
    (hok : ¬ ∀ p ∈ pieces, ok p) : ∃ e, pieces.mapM f = .error e := by
  push Not at hok
  obtain ⟨p, hp, hbad⟩ := hok
  obtain ⟨e, he⟩ := (h p hp).2 hbad
  exact ExceptList.exists_mapM_eq_error hp he

theorem decides_leastSevere (hne : pieces ≠ []) (h : ∀ p ∈ pieces, Decides (f p) (ok p) (val p)) :
    Decides (do let parts ← pieces.mapM f; leastSevere parts) (∀ p ∈ pieces, ok p)
      ((pieces.map val).foldr (· ⊓ ·) ⊤) := by
  refine ⟨fun hok ↦ ?_, fun hok ↦ ?_⟩
  · obtain ⟨ds, hds, hlen, hcls⟩ := exists_mapM_of_decides h hok
    have hds_ne : ds ≠ [] := by
      rintro rfl
      exact hne (List.eq_nil_of_length_eq_zero hlen.symm)
    rw [hds, ← hcls]
    exact exists_leastSevere hds_ne
  · obtain ⟨e, he⟩ := exists_mapM_error_of_decides h hok
    exact ⟨e, by rw [he]; rfl⟩

theorem decides_mostSevere (hne : pieces ≠ []) (h : ∀ p ∈ pieces, Decides (f p) (ok p) (val p)) :
    Decides (do let parts ← pieces.mapM f; mostSevere parts) (∀ p ∈ pieces, ok p)
      ((pieces.map val).foldr (· ⊔ ·) ⊥) := by
  refine ⟨fun hok ↦ ?_, fun hok ↦ ?_⟩
  · obtain ⟨ds, hds, hlen, hcls⟩ := exists_mapM_of_decides h hok
    have hds_ne : ds ≠ [] := by
      rintro rfl
      exact hne (List.eq_nil_of_length_eq_zero hlen.symm)
    rw [hds, ← hcls]
    exact exists_mostSevere hds_ne
  · obtain ⟨e, he⟩ := exists_mapM_error_of_decides h hok
    exact ⟨e, by rw [he]; rfl⟩

end Operands

/-! ## Classifying a chain of words -/

variable (policy : LicensePolicy)

/-- The table does not list the identifier under `UNKNOWN`, a class that has no action. -/
def LicensePolicy.Actionable (a : LicenseId) : Prop :=
  policy.spdxToClass (lower a.text) ≠ some .unknown

/-- No parentheses around a chain that is a single word. -/
def BareIfSingle (c : Chain Word) : Prop := c.tail = [] → c.head.opens = 0 ∧ c.head.closes = 0

theorem bareIfSingle_trim (c : Chain Word) : BareIfSingle (trim c) := by
  obtain ⟨a, tail⟩ := c
  cases tail with
  | nil => exact fun _ ↦ ⟨rfl, rfl⟩
  | cons x rest => exact fun h ↦ by simp [trim, Chain.mapHead, Chain.mapLast, Chain.mapLastFrom] at h

theorem ops_map_id (c : Chain Word) : (c.map Word.id).ops = c.ops := by
  simp [Chain.ops, Chain.map, Function.comp_def]

theorem ops_trim (c : Chain Word) : (trim c).ops = c.ops := by
  rw [← ops_map_id, map_id_trim, ops_map_id]

theorem decides_single {c : Chain Word} (htail : c.tail = []) (hbare : BareIfSingle c) (n : ℕ) :
    Decides (policy.classifyWithin (n + 1) (chainText c))
      (∀ a ∈ (c.map Word.id).atoms, policy.Actionable a)
      ((c.map Word.id).value policy.classOf) := by
  obtain ⟨⟨opens, a, closes⟩, tail⟩ := c
  obtain rfl : tail = [] := htail
  obtain ⟨rfl, rfl⟩ : opens = 0 ∧ closes = 0 := hbare rfl
  have hops : ∀ op, containsCI (opText op) (chainText ⟨⟨0, a, 0⟩, []⟩) = false := by
    intro op
    rw [← Bool.not_eq_true, containsCI_chainText]
    simp [Chain.ops]
  have hor := hops .or
  have hand := hops .and
  have hstrip := stripChars_isSpace_chainText ⟨⟨0, a, 0⟩, []⟩
  have htext : chainText ⟨⟨0, a, 0⟩, []⟩ = a.text.toList := by simp [chainText, Word.text]
  have hne := Word.idText_ne_nil a
  rw [htext] at hor hand hstrip ⊢
  simp only [opText] at hor hand
  unfold LicensePolicy.classifyWithin
  simp only [hstrip, hor, hand, List.isEmpty_iff, hne, if_false, Bool.false_eq_true,
    String.ofList_toList]
  simp only [Chain.map, Chain.atoms, List.map_nil, List.mem_singleton, forall_eq, Chain.value,
    Chain.valueFrom, LicensePolicy.Actionable, LicensePolicy.classOf]
  cases policy.spdxToClass (lower a.text) with
  | none => exact ⟨fun _ ↦ ⟨_, rfl, rfl⟩, fun h ↦ (h (by simp)).elim⟩
  | some cls =>
      cases cls with
      | unknown => exact ⟨fun h ↦ (h rfl).elim, fun _ ↦ ⟨_, rfl⟩⟩
      | green => exact ⟨fun _ ↦ ⟨_, rfl, rfl⟩, fun h ↦ (h (by simp)).elim⟩
      | yellow => exact ⟨fun _ ↦ ⟨_, rfl, rfl⟩, fun h ↦ (h (by simp)).elim⟩
      | red => exact ⟨fun _ ↦ ⟨_, rfl, rfl⟩, fun h ↦ (h (by simp)).elim⟩

theorem cutAt_ne_nil (op : Op) (c : Chain Word) : c.cutAt op ≠ [] := by
  obtain ⟨d, ds, hcut, -⟩ := Chain.exists_cutFrom op c.head c.tail
  rw [Chain.cutAt, hcut]
  simp

/-- Every operand of the split stands for one piece of the chain. -/
theorem forall_atoms_cutAt (op : Op) (c : Chain Word) (p : LicenseId → Prop) :
    (∀ d ∈ c.cutAt op, ∀ a ∈ ((trim d).map Word.id).atoms, p a) ↔
      ∀ a ∈ (c.map Word.id).atoms, p a := by
  rw [← Chain.flatMap_atoms_cutAt op (c.map Word.id), Chain.cutAt_map]
  simp only [map_id_trim, List.mem_flatMap, List.mem_map, forall_exists_index, and_imp,
    forall_apply_eq_imp_iff₂]
  tauto

theorem map_value_cutAt (op : Op) (c : Chain Word) (f : LicenseId → LicenseClass) :
    (c.cutAt op).map (fun d ↦ ((trim d).map Word.id).value f) =
      ((c.map Word.id).cutAt op).map (Chain.value f) := by
  rw [Chain.cutAt_map, List.map_map]
  refine List.map_congr_left fun d _ ↦ ?_
  rw [map_id_trim]
  rfl

/-- A chain that is joined by AND alone. -/
theorem decides_and {c : Chain Word} (hor : .or ∉ c.ops) (hbare : BareIfSingle c) (n : ℕ) :
    Decides (policy.classifyWithin (n + 2) (chainText c))
      (∀ a ∈ (c.map Word.id).atoms, policy.Actionable a)
      ((c.map Word.id).value policy.classOf) := by
  by_cases hand : .and ∈ c.ops
  · have hpieces : ∀ d ∈ c.cutAt .and, Decides (policy.classifyWithin (n + 1) (chainText (trim d)))
        (∀ a ∈ ((trim d).map Word.id).atoms, policy.Actionable a)
        (((trim d).map Word.id).value policy.classOf) := by
      intro d hd
      refine decides_single policy ?_ (bareIfSingle_trim d) n
      have hand' := Chain.ops_of_mem_cutAt hd
      have hor' : .or ∉ d.ops := fun ho ↦ hor (Chain.mem_ops_of_mem_cutAt ho hd)
      rw [← ops_trim] at hand' hor'
      cases htail : (trim d).tail with
      | nil => rfl
      | cons x rest =>
          obtain ⟨o, b⟩ := x
          cases o <;> simp [Chain.ops, htail] at hand' hor'
    have hdecides := decides_mostSevere (cutAt_ne_nil .and c) hpieces
    have hor' : containsCI orSep (chainText c) = false := by
      rw [← Bool.not_eq_true]
      exact fun h ↦ hor ((containsCI_chainText .or c).mp h)
    have hand' : containsCI andSep (chainText c) = true := (containsCI_chainText .and c).mpr hand
    have hsplit : split (chainText c) andSep = _ := split_chainText .and c
    unfold LicensePolicy.classifyWithin
    simp only [stripChars_isSpace_chainText, hor', hand', hsplit, List.isEmpty_iff,
      chainText_ne_nil, if_false, if_true, Bool.false_eq_true, List.mapM_map]
    have hbind := hdecides.bind (g := fun worst ↦ ⟨String.ofList (chainText c), worst.licenseClass,
      worst.action, "AND -> most restrictive: " ++ worst.licenseId⟩) fun _ ↦ rfl
    rw [bind_assoc] at hbind
    refine hbind.congr (forall_atoms_cutAt .and c _) ?_
    rw [map_value_cutAt, Chain.value_eq_cutAt_and policy.classOf (by rwa [ops_map_id])]
  · refine decides_single policy ?_ hbare (n + 1)
    cases htail : c.tail with
    | nil => rfl
    | cons x rest =>
        obtain ⟨o, b⟩ := x
        cases o <;> simp [Chain.ops, htail] at hand hor

/-- Any chain of words is worth the value of its erased text. -/
theorem decides_chain (c : Chain Word) (hbare : BareIfSingle c) (n : ℕ) :
    Decides (policy.classifyWithin (n + 3) (chainText c))
      (∀ a ∈ (c.map Word.id).atoms, policy.Actionable a)
      ((c.map Word.id).value policy.classOf) := by
  by_cases hor : .or ∈ c.ops
  · have hpieces : ∀ d ∈ c.cutAt .or, Decides (policy.classifyWithin (n + 2) (chainText (trim d)))
        (∀ a ∈ ((trim d).map Word.id).atoms, policy.Actionable a)
        (((trim d).map Word.id).value policy.classOf) := by
      intro d hd
      refine decides_and policy ?_ (bareIfSingle_trim d) n
      rw [ops_trim]
      exact Chain.ops_of_mem_cutAt hd
    have hdecides := decides_leastSevere (cutAt_ne_nil .or c) hpieces
    have hor' : containsCI orSep (chainText c) = true := (containsCI_chainText .or c).mpr hor
    have hsplit : split (chainText c) orSep = _ := split_chainText .or c
    unfold LicensePolicy.classifyWithin
    simp only [stripChars_isSpace_chainText, hor', hsplit, List.isEmpty_iff, chainText_ne_nil,
      if_false, if_true, List.mapM_map]
    have hbind := hdecides.bind (g := fun best ↦ ⟨String.ofList (chainText c), best.licenseClass,
      best.action, "OR -> most permissive: " ++ best.licenseId⟩) fun _ ↦ rfl
    rw [bind_assoc] at hbind
    refine hbind.congr (forall_atoms_cutAt .or c _) ?_
    rw [map_value_cutAt, Chain.value_eq_cutAt]
  · exact decides_and policy hor hbare (n + 1)

theorem bareIfSingle_words (e : Expr LicenseId) : BareIfSingle (words e) := by
  cases e with
  | atom a => exact fun _ ↦ ⟨rfl, rfl⟩
  | node op l r =>
      cases op <;> exact fun h ↦ by simp [words, Chain.append] at h

theorem length_lt_render (op : Op) (l r : Expr LicenseId) :
    3 ≤ (render (.node op l r)).length := by
  cases op <;> simp [render, orSep, andSep] <;> omega

/-- `classify` computes the value of the text with its parentheses erased. -/
theorem decides_classify (e : Expr LicenseId) :
    Decides (policy.classify (String.ofList (render e))) (∀ a ∈ e.atoms, policy.Actionable a)
      (e.flat.value policy.classOf) := by
  unfold LicensePolicy.classify
  rw [String.toList_ofList, ← Expr.atoms_flat, ← map_id_words]
  cases e with
  | atom a =>
      rw [← chainText_words]
      exact decides_single policy rfl (bareIfSingle_words _) _
  | node op l r =>
      have hlen := length_lt_render op l r
      obtain ⟨n, hn⟩ := Nat.exists_eq_add_of_le' hlen
      rw [hn, ← chainText_words]
      exact decides_chain policy _ (bareIfSingle_words _) (n + 1)

/-- A decision is never more severe than the meaning of the expression. -/
theorem licenseClass_le_meaning {e : Expr LicenseId} {d : PolicyDecision}
    (h : policy.classify (String.ofList (render e)) = .ok d) :
    d.licenseClass ≤ policy.meaning e := by
  have hdecides := decides_classify policy e
  have hok : ∀ a ∈ e.atoms, policy.Actionable a := by
    by_contra hbad
    obtain ⟨err, herr⟩ := hdecides.2 hbad
    rw [h] at herr
    simp at herr
  obtain ⟨d', hd', hcls⟩ := hdecides.1 hok
  obtain rfl : d = d' := Except.ok.inj (h.symm.trans hd')
  rw [hcls]
  exact Expr.value_flat_le policy.classOf e

/-- Without OR below AND every expression is classed by its meaning. -/
theorem exists_classify_of_orAboveAnd {e : Expr LicenseId} (h : e.OrAboveAnd)
    (hok : ∀ a ∈ e.atoms, policy.Actionable a) :
    ∃ d, policy.classify (String.ofList (render e)) = .ok d ∧
      d.licenseClass = policy.meaning e := by
  obtain ⟨d, hd, hcls⟩ := (decides_classify policy e).1 hok
  exact ⟨d, hd, hcls.trans (Expr.value_flat_of_orAboveAnd policy.classOf h)⟩

/-- The class is the meaning of the expression exactly when erasing the
parentheses does not change that meaning and every identifier has an action. -/
theorem classify_eq_meaning_iff (e : Expr LicenseId) :
    (∃ d, policy.classify (String.ofList (render e)) = .ok d ∧
        d.licenseClass = policy.meaning e) ↔
      (∀ a ∈ e.atoms, policy.Actionable a) ∧ e.flat.value policy.classOf = policy.meaning e := by
  have hdecides := decides_classify policy e
  constructor
  · rintro ⟨d, hd, hmeaning⟩
    have hok : ∀ a ∈ e.atoms, policy.Actionable a := by
      by_contra hbad
      obtain ⟨err, herr⟩ := hdecides.2 hbad
      rw [hd] at herr
      simp at herr
    obtain ⟨d', hd', hcls⟩ := hdecides.1 hok
    obtain rfl : d = d' := Except.ok.inj (hd.symm.trans hd')
    exact ⟨hok, hcls.symm.trans hmeaning⟩
  · rintro ⟨hok, hvalue⟩
    obtain ⟨d, hd, hcls⟩ := hdecides.1 hok
    exact ⟨d, hd, hcls.trans hvalue⟩

def mit : LicenseId := ⟨"MIT", by decide, by decide, by decide, by decide⟩

def gpl : LicenseId := ⟨"GPL-3.0-only", by decide, by decide, by decide, by decide⟩

def mitOrGplTable : LicensePolicy :=
  ⟨[(.green, ["MIT"]), (.red, ["GPL-3.0-only"])], "block", ["container_cli", "container_api"]⟩

/-- `(MIT OR GPL-3.0-only) AND GPL-3.0-only`: both alternatives oblige GPL. -/
def mitOrGplAndGpl : Expr LicenseId :=
  .node .and (.node .or (.atom mit) (.atom gpl)) (.atom gpl)

/-- The expression is RED and classed GREEN. -/
theorem classify_mitOrGplAndGpl :
    mitOrGplTable.meaning mitOrGplAndGpl = .red ∧
      ((mitOrGplTable.classify (String.ofList (render mitOrGplAndGpl))).map
        PolicyDecision.licenseClass) = .ok .green ∧
      ¬ ∃ d, mitOrGplTable.classify (String.ofList (render mitOrGplAndGpl)) = .ok d ∧
        d.licenseClass = mitOrGplTable.meaning mitOrGplAndGpl := by
  have hgreen : ((mitOrGplTable.classify (String.ofList (render mitOrGplAndGpl))).map
      PolicyDecision.licenseClass) = .ok .green := by decide
  refine ⟨by decide, hgreen, ?_⟩
  rintro ⟨d, hd, hmeaning⟩
  rw [hd, Except.map, hmeaning] at hgreen
  exact absurd hgreen (by decide)

end Vantage.Governance
