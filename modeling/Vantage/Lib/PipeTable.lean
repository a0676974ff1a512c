import Mathlib.Tactic

/-!
# Tables between pipes

A table is written with a line for each row and a pipe behind each cell. A pipe
behind a backslash does not end a cell; a backslash is read together with the
character behind it.
-/

namespace PipeTable

variable {l a b t text : List Char} {c : Char} {row texts : List (List Char)}

/-! ## Reading -/

/-- The lines of a text. They end with a line feed, a carriage return or both. -/
def lines : List Char → List (List Char)
  | [] => [[]]
  | '\r' :: '\n' :: l => [] :: lines l
  | c :: l => if c = '\n' ∨ c = '\r' then [] :: lines l else (lines l).modifyHead (c :: ·)

/-- The pieces of a line between its unescaped pipes. -/
def cells : List Char → List (List Char)
  | [] => [[]]
  | '\\' :: c :: l => (cells l).modifyHead fun piece ↦ '\\' :: c :: piece
  | c :: l => if c = '|' then [] :: cells l else (cells l).modifyHead (c :: ·)

/-- One blank is removed at either end. -/
def unpad (l : List Char) : List Char :=
  let l := if l.head? = some ' ' then l.tail else l
  if l.getLast? = some ' ' then l.dropLast else l

/-- The contents of the cells between the first and the last pipe of a line. -/
def readRow (line : List Char) : List (List Char) := (cells line).tail.dropLast.map unpad

/-- The rows below a blank line, a header and a delimiter, up to the next blank line. -/
def readTable (text : List Char) : List (List (List Char)) :=
  (((lines text).drop 3).takeWhile (· ≠ [])).map readRow

/-! ## Writing -/

def writeRow (row : List (List Char)) : List Char :=
  '|' :: row.flatMap fun t ↦ ' ' :: (t ++ [' ', '|'])

def writeTable (header delimiter : List Char) (rows : List (List (List Char)))
    (rest : List Char) : List Char :=
  '\n' :: (header ++ '\n' :: (delimiter ++ '\n' ::
    ((rows.flatMap fun row ↦ writeRow row ++ ['\n']) ++ '\n' :: rest)))

/-! ## The first piece -/

theorem mem_modifyHead {f : List Char → List Char} (h : t ∈ texts.modifyHead f) :
    (∃ first ∈ texts, t = f first) ∨ t ∈ texts := by
  cases texts with
  | nil => exact absurd h List.not_mem_nil
  | cons first rest =>
      rw [List.modifyHead_cons] at h
      rcases List.mem_cons.mp h with rfl | h
      · exact .inl ⟨first, List.mem_cons_self, rfl⟩
      · exact .inr (List.mem_cons_of_mem _ h)

theorem modifyHead_append {f : List Char → List Char} (h : texts ≠ []) :
    (texts ++ row).modifyHead f = texts.modifyHead f ++ row := by
  cases texts with
  | nil => exact absurd rfl h
  | cons first rest => rfl

/-! ## Line ends -/

def Unbroken (l : List Char) : Prop := '\n' ∉ l ∧ '\r' ∉ l

instance : Decidable (Unbroken l) := inferInstanceAs (Decidable (_ ∧ _))

theorem unbroken_nil : Unbroken [] := ⟨List.not_mem_nil, List.not_mem_nil⟩

theorem unbroken_cons : Unbroken (c :: l) ↔ (c ≠ '\n' ∧ c ≠ '\r') ∧ Unbroken l := by
  simp only [Unbroken, List.mem_cons, not_or, ne_eq, eq_comm (a := c)]
  tauto

theorem unbroken_append : Unbroken (a ++ b) ↔ Unbroken a ∧ Unbroken b := by
  simp only [Unbroken, List.mem_append, not_or]
  tauto

theorem Unbroken.subset (hb : Unbroken b) (h : a ⊆ b) : Unbroken a :=
  ⟨fun hmem ↦ hb.1 (h hmem), fun hmem ↦ hb.2 (h hmem)⟩

theorem lines_cons (hc : c ≠ '\r') : lines (c :: l) =
    if c = '\n' then [] :: lines l else (lines l).modifyHead (c :: ·) := by
  rw [lines]
  · simp [hc]
  · rintro l' rfl
    exact absurd rfl hc

/-- A text without line ends stands on the first line. -/
theorem lines_append (ha : Unbroken a) : lines (a ++ '\n' :: b) = a :: lines b := by
  induction a with
  | nil => rw [List.nil_append, lines_cons (by decide), if_pos rfl]
  | cons c a ih =>
      obtain ⟨⟨hnewline, hreturn⟩, ha⟩ := unbroken_cons.mp ha
      rw [List.cons_append, lines_cons hreturn, if_neg hnewline, ih ha, List.modifyHead_cons]

theorem unbroken_of_mem_lines (h : t ∈ lines l) : Unbroken t := by
  fun_induction lines l generalizing t with
  | case1 => rw [List.mem_singleton.mp h]; exact unbroken_nil
  | case2 l ih =>
      rcases List.mem_cons.mp h with rfl | h
      · exact unbroken_nil
      · exact ih h
  | case3 c l hc hend ih =>
      rcases List.mem_cons.mp h with rfl | h
      · exact unbroken_nil
      · exact ih h
  | case4 c l hc hend ih =>
      rcases mem_modifyHead h with ⟨first, hfirst, rfl⟩ | h
      · exact unbroken_cons.mpr ⟨not_or.mp hend, ih hfirst⟩
      · exact ih h

/-! ## Pipes -/

/-- From the end of a text to its first character; one behind a backslash is taken
together with it. -/
theorem induction_on_escapes {motive : List Char → Prop} (nil : motive [])
    (slash : motive ['\\']) (pair : ∀ c l, motive l → motive ('\\' :: c :: l))
    (plain : ∀ c l, c ≠ '\\' → motive l → motive (c :: l)) (l : List Char) : motive l := by
  fun_induction cells l with
  | case1 => exact nil
  | case2 c l ih => exact pair c l ih
  | case3 l hl ih => exact plain '|' l (by decide) ih
  | case4 c l hl hc ih =>
      by_cases hslash : c = '\\'
      · subst hslash
        cases l with
        | nil => exact slash
        | cons d l => exact absurd rfl (hl d l rfl)
      · exact plain c l hslash ih

/-- The number of pipes that are not escaped. -/
def pipes : List Char → ℕ
  | [] => 0
  | '\\' :: _ :: l => pipes l
  | c :: l => if c = '|' then pipes l + 1 else pipes l

theorem cells_cons (hc : c ≠ '\\') : cells (c :: l) =
    if c = '|' then [] :: cells l else (cells l).modifyHead (c :: ·) := by
  rw [cells]
  rintro d l' rfl
  exact absurd rfl hc

theorem pipes_cons (hc : c ≠ '\\') : pipes (c :: l) =
    if c = '|' then pipes l + 1 else pipes l := by
  rw [pipes]
  rintro d l' rfl
  exact absurd rfl hc

theorem length_cells (l : List Char) : (cells l).length = pipes l + 1 := by
  induction l using induction_on_escapes with
  | nil => rfl
  | slash => rfl
  | pair c l ih => rw [cells, pipes, List.length_modifyHead, ih]
  | plain c l hc ih =>
      rw [cells_cons hc, pipes_cons hc]
      split_ifs
      · rw [List.length_cons, ih]
      · rw [List.length_modifyHead, ih]

theorem cells_ne_nil (l : List Char) : cells l ≠ [] :=
  List.ne_nil_of_length_eq_add_one (length_cells l)

theorem cells_eq_singleton (h : pipes l = 0) : cells l = [l] := by
  induction l using induction_on_escapes with
  | nil => rfl
  | slash => rfl
  | pair c l ih => rw [cells, ih h, List.modifyHead_cons]
  | plain c l hc ih =>
      rw [pipes_cons hc] at h
      rw [cells_cons hc]
      split_ifs at h ⊢ with hpipe
      rw [ih h, List.modifyHead_cons]

/-- Every character of a cell is one of the line. -/
theorem subset_of_mem_cells (h : t ∈ cells l) : t ⊆ l := by
  induction l using induction_on_escapes generalizing t with
  | nil => rw [List.mem_singleton.mp h]; exact List.Subset.refl _
  | slash => rw [List.mem_singleton.mp h]; exact List.Subset.refl _
  | pair c l ih =>
      rw [cells] at h
      rcases mem_modifyHead h with ⟨first, hfirst, rfl⟩ | h
      · exact List.cons_subset_cons _ (List.cons_subset_cons _ (ih hfirst))
      · exact List.subset_cons_of_subset _ (List.subset_cons_of_subset _ (ih h))
  | plain c l hc ih =>
      rw [cells_cons hc] at h
      split_ifs at h
      · rcases List.mem_cons.mp h with rfl | h
        · exact List.nil_subset _
        · exact List.subset_cons_of_subset _ (ih h)
      · rcases mem_modifyHead h with ⟨first, hfirst, rfl⟩ | h
        · exact List.cons_subset_cons _ (ih hfirst)
        · exact List.subset_cons_of_subset _ (ih h)

/-- A character that is neither a pipe nor a backslash separates the escapes of two texts. -/
theorem pipes_append_cons (hpipe : c ≠ '|') (hslash : c ≠ '\\') :
    pipes (a ++ c :: b) = pipes a + pipes b := by
  induction a using induction_on_escapes with
  | nil => rw [List.nil_append, pipes_cons hslash, if_neg hpipe, pipes, Nat.zero_add]
  | slash => rw [List.cons_append, List.nil_append, pipes]; simp [pipes]
  | pair d a ih => rw [List.cons_append, List.cons_append, pipes, pipes, ih]
  | plain d a hd ih =>
      rw [List.cons_append, pipes_cons hd, pipes_cons hd, ih]
      split_ifs <;> omega

/-- The text has neither a line end nor an unescaped pipe. -/
def Fits (l : List Char) : Prop := Unbroken l ∧ pipes l = 0

theorem fits_nil : Fits [] := ⟨unbroken_nil, rfl⟩

/-- A character that ends no cell, no line and no escape. -/
def Neutral (c : Char) : Prop := (c ≠ '\n' ∧ c ≠ '\r') ∧ c ≠ '|' ∧ c ≠ '\\'

instance : Decidable (Neutral c) := inferInstanceAs (Decidable (_ ∧ _))

theorem fits_append_cons (hc : Neutral c) : Fits (a ++ c :: b) ↔ Fits a ∧ Fits b := by
  rw [Fits, unbroken_append, unbroken_cons, pipes_append_cons hc.2.1 hc.2.2, Nat.add_eq_zero_iff,
    Fits, Fits]
  have hend := hc.1
  tauto

theorem fits_cons (hc : Neutral c) : Fits (c :: l) ↔ Fits l := by
  have happend := fits_append_cons (a := []) (b := l) hc
  rw [List.nil_append] at happend
  exact happend.trans (and_iff_right fits_nil)

theorem fits_of_neutral (h : ∀ c ∈ l, Neutral c) : Fits l := by
  induction l with
  | nil => exact fits_nil
  | cons c l ih =>
      obtain ⟨hc, hl⟩ := List.forall_mem_cons.mp h
      exact (fits_cons hc).mpr (ih hl)

theorem fits_intercalate {d : Char} (hc : Neutral c) (hd : Neutral d) :
    Fits ([c, d].intercalate texts) ↔ ∀ t ∈ texts, Fits t := by
  induction texts with
  | nil => simp [fits_nil]
  | cons t texts ih =>
      cases texts with
      | nil => simp
      | cons t' texts =>
          rw [List.intercalate_cons_cons, List.append_assoc, List.cons_append,
            List.singleton_append, fits_append_cons hc, fits_cons hd, ih]
          exact List.forall_mem_cons.symm

/-- A pipe behind such a character ends a cell. -/
theorem cells_append_cons_pipe (hpipe : c ≠ '|') (hslash : c ≠ '\\') :
    cells (a ++ c :: '|' :: b) = cells (a ++ [c]) ++ cells b := by
  have hbase : ∀ b, cells ('|' :: b) = [] :: cells b := fun b ↦ by
    rw [cells_cons (by decide), if_pos rfl]
  induction a using induction_on_escapes with
  | nil =>
      rw [List.nil_append, List.nil_append, cells_cons hslash, cells_cons hslash, if_neg hpipe,
        if_neg hpipe, hbase]
      rfl
  | slash =>
      rw [List.cons_append, List.nil_append, List.cons_append, List.nil_append, cells, cells, hbase]
      rfl
  | pair d a ih =>
      rw [List.cons_append, List.cons_append, List.cons_append, List.cons_append, cells, cells, ih,
        modifyHead_append (cells_ne_nil _)]
  | plain d a hd ih =>
      rw [List.cons_append, List.cons_append, cells_cons hd, cells_cons hd, ih]
      split_ifs
      · rfl
      · exact modifyHead_append (cells_ne_nil _)

theorem unpad_pad (t : List Char) : unpad (' ' :: (t ++ [' '])) = t := by
  simp [unpad]

/-! ## Rows -/

theorem unpad_subset (t : List Char) : unpad t ⊆ t := by
  have hlast : ∀ l : List Char, (if l.getLast? = some ' ' then l.dropLast else l) ⊆ l := by
    intro l
    split_ifs
    · exact l.dropLast_subset
    · exact List.Subset.refl l
  have hfirst : (if t.head? = some ' ' then t.tail else t) ⊆ t := by
    split_ifs
    · exact t.tail_subset
    · exact List.Subset.refl t
  exact List.Subset.trans (hlast _) hfirst

theorem readRow_subset (h : t ∈ readRow l) : t ⊆ l := by
  obtain ⟨piece, hpiece, rfl⟩ := List.mem_map.mp h
  have hcell : piece ∈ cells l := (cells l).tail_subset ((cells l).tail.dropLast_subset hpiece)
  exact List.Subset.trans (unpad_subset piece) (subset_of_mem_cells hcell)

theorem cells_writeRow (row : List (List Char)) : cells (writeRow row) =
    [] :: ((row.flatMap fun t ↦ cells (' ' :: (t ++ [' ']))) ++ [[]]) := by
  rw [writeRow, cells_cons (by decide), if_pos rfl]
  congr 1
  induction row with
  | nil => rfl
  | cons t row ih =>
      rw [List.flatMap_cons, List.flatMap_cons, List.append_assoc, ← ih]
      have happend := cells_append_cons_pipe (c := ' ') (a := ' ' :: t)
        (b := row.flatMap fun t ↦ ' ' :: (t ++ [' ', '|'])) (by decide) (by decide)
      simpa using happend

theorem readRow_writeRow (row : List (List Char)) : readRow (writeRow row) =
    (row.flatMap fun t ↦ cells (' ' :: (t ++ [' ']))).map unpad := by
  rw [readRow, cells_writeRow, List.tail_cons, List.dropLast_concat]

theorem length_cells_pad (t : List Char) : (cells (' ' :: (t ++ [' ']))).length = pipes t + 1 := by
  rw [length_cells, pipes_cons (by decide), if_neg (by decide),
    pipes_append_cons (by decide) (by decide), pipes, Nat.add_zero]

theorem length_readRow_writeRow (row : List (List Char)) :
    (readRow (writeRow row)).length = (row.map pipes).sum + row.length := by
  rw [readRow_writeRow, List.length_map]
  induction row with
  | nil => rfl
  | cons t row ih =>
      rw [List.flatMap_cons, List.length_append, ih, length_cells_pad, List.map_cons, List.sum_cons,
        List.length_cons]
      omega

/-- A row is read as it was written when no text has an unescaped pipe, and only then. -/
theorem readRow_writeRow_eq_iff : readRow (writeRow row) = row ↔ ∀ t ∈ row, pipes t = 0 := by
  constructor
  · intro h t ht
    have hlength := length_readRow_writeRow row
    rw [h] at hlength
    have hsum : (row.map pipes).sum = 0 := by omega
    exact List.sum_eq_zero_iff.mp hsum _ (List.mem_map_of_mem ht)
  · intro h
    rw [readRow_writeRow]
    induction row with
    | nil => rfl
    | cons t row ih =>
        obtain ⟨ht, hrow⟩ := List.forall_mem_cons.mp h
        have hpad : pipes (' ' :: (t ++ [' '])) = 0 := by
          have hlength := length_cells_pad t
          rw [length_cells, ht] at hlength
          omega
        rw [List.flatMap_cons, cells_eq_singleton hpad, List.map_append, ih hrow,
          List.map_singleton, unpad_pad, List.singleton_append]

/-! ## Tables -/

/-- Lines that are joined in two parts. -/
theorem intercalate_append (ha : texts ≠ []) (hb : row ≠ []) :
    ['\n'].intercalate (texts ++ row) =
      ['\n'].intercalate texts ++ '\n' :: ['\n'].intercalate row := by
  induction texts with
  | nil => exact absurd rfl ha
  | cons l texts ih =>
      cases texts with
      | nil => rw [List.singleton_append, List.intercalate_cons_of_ne_nil hb,
          List.intercalate_singleton, List.append_assoc, List.singleton_append]
      | cons l' texts =>
          have htexts := ih (List.cons_ne_nil _ _)
          rw [List.cons_append, List.intercalate_cons_cons, List.append_assoc, ← htexts,
            List.cons_append, List.intercalate_cons_cons]

theorem intercalate_append_flatMap (h : row ≠ []) : ['\n'].intercalate (texts ++ row) =
    (texts.flatMap fun l ↦ l ++ ['\n']) ++ ['\n'].intercalate row := by
  induction texts with
  | nil => rfl
  | cons l texts ih =>
      have hne : texts ++ row ≠ [] := List.append_ne_nil_of_right_ne_nil _ h
      rw [List.cons_append, List.intercalate_cons_of_ne_nil hne, ih, List.flatMap_cons]
      simp only [List.append_assoc]

/-- A table of lines that are joined. -/
theorem intercalate_table {header delimiter : List Char} {rows : List (List (List Char))}
    (h : texts ≠ []) : ['\n'].intercalate
      ([] :: header :: delimiter :: (rows.map writeRow ++ [] :: texts)) =
        writeTable header delimiter rows (['\n'].intercalate texts) := by
  have hrest : [] :: texts ≠ [] := List.cons_ne_nil _ _
  have hrows : (rows.map writeRow ++ [] :: texts) ≠ [] := List.append_ne_nil_of_right_ne_nil _ hrest
  rw [List.intercalate_cons_cons, List.intercalate_cons_cons,
    List.intercalate_cons_of_ne_nil hrows, intercalate_append_flatMap hrest,
    List.intercalate_cons_of_ne_nil h, List.flatMap_map]
  simp only [writeTable, List.append_assoc, List.nil_append, List.singleton_append]

theorem lines_flatMap (h : ∀ l ∈ texts, Unbroken l) (rest : List Char) :
    lines ((texts.flatMap fun l ↦ l ++ ['\n']) ++ rest) = texts ++ lines rest := by
  induction texts with
  | nil => rfl
  | cons l texts ih =>
      obtain ⟨hl, htexts⟩ := List.forall_mem_cons.mp h
      rw [List.flatMap_cons, List.append_assoc, List.append_assoc, List.singleton_append,
        lines_append hl, ih htexts, List.cons_append]

theorem unbroken_writeRow (h : ∀ t ∈ row, Unbroken t) : Unbroken (writeRow row) := by
  refine unbroken_cons.mpr ⟨by decide, ?_⟩
  induction row with
  | nil => exact unbroken_nil
  | cons t row ih =>
      obtain ⟨ht, hrow⟩ := List.forall_mem_cons.mp h
      have hpadded : Unbroken (' ' :: (t ++ [' ', '|'])) :=
        unbroken_cons.mpr ⟨by decide, unbroken_append.mpr ⟨ht, by simp [Unbroken]⟩⟩
      exact unbroken_append.mpr ⟨hpadded, ih hrow⟩

section Table

variable {header delimiter rest : List Char} {rows : List (List (List Char))}
  (hheader : Unbroken header) (hdelimiter : Unbroken delimiter)

include hheader hdelimiter

theorem drop_lines_writeTable : (lines (writeTable header delimiter rows rest)).drop 3 =
    lines ((rows.flatMap fun row ↦ writeRow row ++ ['\n']) ++ '\n' :: rest) := by
  have hblank : ∀ b, lines ('\n' :: b) = [] :: lines b := fun b ↦ by
    rw [lines_cons (by decide), if_pos rfl]
  rw [writeTable, hblank, lines_append hheader, lines_append hdelimiter]
  rfl

/-- Without line ends in the texts every row stands on a line of its own. -/
theorem readTable_writeTable (h : ∀ row ∈ rows, ∀ t ∈ row, Unbroken t) :
    readTable (writeTable header delimiter rows rest) =
      rows.map fun row ↦ readRow (writeRow row) := by
  have hlines : ∀ l ∈ rows.map writeRow, Unbroken l := by
    intro l hl
    obtain ⟨row, hrow, rfl⟩ := List.mem_map.mp hl
    exact unbroken_writeRow (h row hrow)
  have hflat : (rows.flatMap fun row ↦ writeRow row ++ ['\n']) =
      (rows.map writeRow).flatMap fun l ↦ l ++ ['\n'] :=
    (List.flatMap_map writeRow (fun l ↦ l ++ ['\n']) rows).symm
  have hrows : ∀ l ∈ rows.map writeRow, decide (l ≠ []) = true := by
    intro l hl
    obtain ⟨row, -, rfl⟩ := List.mem_map.mp hl
    exact decide_eq_true (List.cons_ne_nil _ _)
  have hblank : lines ('\n' :: rest) = [] :: lines rest := by
    rw [lines_cons (by decide), if_pos rfl]
  rw [readTable, drop_lines_writeTable hheader hdelimiter, hflat, lines_flatMap hlines, hblank,
    List.takeWhile_append_of_pos hrows, List.takeWhile_cons_of_neg (by simp), List.append_nil,
    List.map_map]
  rfl

/-- The rows that a reader finds are those that were written exactly when no text
in them has a line end or an unescaped pipe. -/
theorem readTable_writeTable_iff : readTable (writeTable header delimiter rows rest) = rows ↔
    ∀ row ∈ rows, ∀ t ∈ row, Fits t := by
  have hread : (∀ row ∈ rows, ∀ t ∈ row, Unbroken t) →
      (readTable (writeTable header delimiter rows rest) = rows ↔
        ∀ row ∈ rows, ∀ t ∈ row, pipes t = 0) := by
    intro h
    have hrows := List.map_inj_left (f := fun row ↦ readRow (writeRow row)) (g := id) (l := rows)
    rw [List.map_id] at hrows
    rw [readTable_writeTable hheader hdelimiter h, hrows]
    exact forall₂_congr fun row _ ↦ readRow_writeRow_eq_iff
  constructor
  · intro h
    have hunbroken : ∀ row ∈ rows, ∀ t ∈ row, Unbroken t := by
      intro row hrow t ht
      rw [← h] at hrow
      obtain ⟨line, hline, rfl⟩ := List.mem_map.mp hrow
      have hmem : line ∈ lines (writeTable header delimiter rows rest) :=
        List.mem_of_mem_drop ((List.takeWhile_sublist _).mem hline)
      exact (unbroken_of_mem_lines hmem).subset (readRow_subset ht)
    exact fun row hrow t ht ↦ ⟨hunbroken row hrow t ht, (hread hunbroken).mp h row hrow t ht⟩
  · intro h
    have hunbroken : ∀ row ∈ rows, ∀ t ∈ row, Unbroken t :=
      fun row hrow t ht ↦ (h row hrow t ht).1
    exact (hread hunbroken).mpr fun row hrow t ht ↦ (h row hrow t ht).2

end Table

end PipeTable
