import Vantage.Adapters.Oss.Discovery
import Vantage.Adapters.Oss.Nuclei
import Vantage.Adapters.Oss.Recon
import Vantage.Lib.Lines

/-!
# Records on lines

The tools write one JSON object a line. The parsers split their output at every
character that ends a line for Python, and a JSON text may hold three of these
as they are.
-/

namespace Vantage.Adapters.Oss

open Text Engines

variable {w : World} {x : ContainerAdapter} {sandbox : Option SandboxResult} {text : String}
  {lines : List (String × Record)} {record : Record}

/-- The adapters that read their output line by line. -/
def jsonlAdapters : List ContainerAdapter :=
  [Nuclei.adapter, Katana.adapter, Httpx.adapter, Subfinder.adapter, Dnsx.adapter, Tlsx.adapter]

/-- A text that an encoder may write for an object: nothing is outside the braces,
and the characters below the space are escaped. -/
structure Encodes (w : World) (text : String) (record : Record) : Prop where
  loads : w.loads text = .ok (.obj record)
  opens : text.toList.head? = some '{'
  closes : text.toList.getLast? = some '}'
  escaped : ∀ c ∈ text.toList, 32 ≤ c.toNat

def newlineLines (text : String) : List (List Char) := text.toList.splitOn '\n'

/-- A record or a rejection for each line that is not blank. -/
def AccountsForLines (w : World) (x : ContainerAdapter) (sandbox : Option SandboxResult)
    (text : String) : Prop :=
  ∃ records rejected, x.collect w sandbox = .ok (records, rejected) ∧
    records.length + rejected = (newlineLines text).countP (·.any visible)

/-- Reading raises nothing but the error that the parsers catch. -/
def Caught (w : World) (text : String) : Prop :=
  ∀ e, w.loads text = .error e → e = .jsonDecodeError

/-! ## The parser -/

theorem collect_eq (hx : x ∈ jsonlAdapters) (hread : guardOutput w sandbox = .ok text) :
    x.collect w sandbox = parseJsonl w text := by
  have hcollect : x.collect w sandbox = collectJsonl w sandbox := by
    simp only [jsonlAdapters, List.mem_cons, List.not_mem_nil, or_false] at hx
    rcases hx with rfl | rfl | rfl | rfl | rfl | rfl <;> rfl
  rw [hcollect, collectJsonl, hread]
  rfl

theorem parseLines_cons_visible {line : String} {rest : List String}
    (h : line.toList.any visible = true) : parseLines w objectLine (line :: rest) =
      match w.loads (strip line) with
      | .error .jsonDecodeError =>
          (parseLines w objectLine rest).map fun (records, rejected) ↦ (records, rejected + 1)
      | .error e => .error e
      | .ok value =>
          (parseLines w objectLine rest).map fun (records, rejected) ↦
            match objectLine value with
            | .record r => (r :: records, rejected)
            | .rejected => (records, rejected + 1)
            | .skipped => (records, rejected) := by
  rw [parseLines]
  exact if_neg (strip_ne_empty_iff.mpr h)

theorem parseLines_cons_blank {line : String} {rest : List String}
    (h : line.toList.any visible = false) :
    parseLines w objectLine (line :: rest) = parseLines w objectLine rest := by
  rw [parseLines]
  refine if_pos (not_not.mp fun hne ↦ ?_)
  rw [strip_ne_empty_iff.mp hne] at h
  exact Bool.noConfusion h

theorem parseLines_filter (rest : List String) : parseLines w objectLine rest =
    parseLines w objectLine (rest.filter fun line ↦ line.toList.any visible) := by
  induction rest with
  | nil => rfl
  | cons line rest ih =>
      cases h : line.toList.any visible with
      | false => rw [parseLines_cons_blank h, ih, List.filter_cons, h]; rfl
      | true =>
          rw [List.filter_cons, if_pos h, parseLines_cons_visible h, parseLines_cons_visible h, ih]

/-- A visible line adds one to what the others give, unless reading it raises. -/
theorem parseLines_cons_cases {line : String} (h : line.toList.any visible = true)
    (rest : List String) :
    (¬ Caught w (strip line) ∧ ∃ e, parseLines w objectLine (line :: rest) = .error e) ∨
      (Caught w (strip line) ∧ ∃ add : List Record × ℕ → List Record × ℕ,
        (∀ out, (add out).1.length + (add out).2 = out.1.length + out.2 + 1) ∧
          parseLines w objectLine (line :: rest) = (parseLines w objectLine rest).map add) := by
  rw [parseLines_cons_visible h]
  cases hloads : w.loads (strip line) with
  | ok value =>
      refine Or.inr ⟨fun e he ↦ (nomatch hloads.symm.trans he), _, ?_, rfl⟩
      rintro ⟨records, rejected⟩
      cases value with
      | obj members =>
          simp only [objectLine, List.length_cons]
          omega
      | _ => rfl
  | error e =>
      by_cases he : e = .jsonDecodeError
      · subst he
        exact Or.inr ⟨fun e he ↦ (Except.error.inj (hloads.symm.trans he)).symm, _, fun _ ↦ rfl, rfl⟩
      · refine Or.inl ⟨fun hcaught ↦ he (hcaught e hloads), e, ?_⟩
        cases e <;> first | rfl | exact absurd rfl he

/-- Every visible line is counted once. -/
theorem length_parseLines {rest : List String} {records : List Record} {rejected : ℕ}
    (h : parseLines w objectLine rest = .ok (records, rejected)) :
    records.length + rejected = rest.countP fun line ↦ line.toList.any visible := by
  induction rest generalizing records rejected with
  | nil =>
      obtain ⟨rfl, rfl⟩ := Prod.mk.inj (Except.ok.inj h)
      rfl
  | cons line rest ih =>
      cases hvisible : line.toList.any visible with
      | false =>
          rw [parseLines_cons_blank hvisible] at h
          rw [List.countP_cons_of_neg (by simp [hvisible]), ih h]
      | true =>
          simp only [List.countP_cons, hvisible, if_true]
          rcases parseLines_cons_cases (w := w) hvisible rest with ⟨-, e, he⟩ | ⟨-, add, hadd, hmap⟩
          · exact nomatch he.symm.trans h
          · rw [hmap] at h
            cases hrest : parseLines w objectLine rest with
            | error e => simp [hrest, Except.map] at h
            | ok out =>
                rw [hrest] at h
                have hout := Except.ok.inj h
                have hcount := hadd out
                rw [hout] at hcount
                rw [hcount, ih hrest]

theorem parseLines_returns_iff (rest : List String) :
    (∃ out, parseLines w objectLine rest = .ok out) ↔
      ∀ line ∈ rest, line.toList.any visible = true → Caught w (strip line) := by
  induction rest with
  | nil => simp [parseLines]
  | cons line rest ih =>
      rw [List.forall_mem_cons, ← ih]
      cases hvisible : line.toList.any visible with
      | false => simp [parseLines_cons_blank hvisible]
      | true =>
          rcases parseLines_cons_cases (w := w) hvisible rest with ⟨hnot, e, he⟩ | ⟨hcaught, add, -, hmap⟩
          · simp [he, hnot]
          · rw [hmap]
            cases parseLines w objectLine rest with
            | error e => simp [Except.map]
            | ok out => simp [Except.map, hcaught]

/-! ## Lines and pieces of lines -/

theorem countP_splitLines (text : String) :
    (splitLines text).countP (fun line ↦ line.toList.any visible) =
      ((newlineLines text).flatMap (·.splitOnP isLineBreak)).countP (·.any visible) := by
  have hlength := congrArg List.length (filter_splitLines text)
  rwa [List.length_map, ← List.countP_eq_length_filter, ← List.countP_eq_length_filter] at hlength

/-- The parser accounts for the lines exactly when it can read their pieces and
no line has a break between visible characters. -/
theorem accountsForLines_iff (hx : x ∈ jsonlAdapters) (hread : guardOutput w sandbox = .ok text) :
    AccountsForLines w x sandbox text ↔
      (∀ piece ∈ splitLines text, piece.toList.any visible = true → Caught w (strip piece)) ∧
        ∀ line ∈ newlineLines text, ¬ Lines.Broken isLineBreak visible line := by
  rw [AccountsForLines, collect_eq hx hread, parseJsonl, ← parseLines_returns_iff,
    ← Lines.countP_flatMap_eq_iff visible_of_isLineBreak, ← countP_splitLines]
  constructor
  · rintro ⟨records, rejected, hparse, hcount⟩
    exact ⟨⟨_, hparse⟩, by rw [← length_parseLines hparse, hcount]⟩
  · rintro ⟨⟨⟨records, rejected⟩, hparse⟩, hcount⟩
    exact ⟨records, rejected, hparse, by rw [length_parseLines hparse, hcount]⟩

/-! ## What an encoder writes -/

namespace Encodes

theorem strip_eq (h : Encodes w text record) : strip text = text := by
  rw [strip, stripChars_eq_self, String.ofList_toList]
  · intro c hc
    rw [h.opens] at hc
    obtain rfl := Option.some.inj hc
    decide
  · intro c hc
    rw [h.closes] at hc
    obtain rfl := Option.some.inj hc
    decide

theorem visible (h : Encodes w text record) : text.toList.any visible = true :=
  List.any_eq_true.mpr ⟨'{', List.mem_of_mem_head? h.opens, by decide⟩

theorem newline_notMem (h : Encodes w text record) : '\n' ∉ text.toList := by
  intro hmem
  exact absurd (h.escaped _ hmem) (by decide)

/-- A break inside a text stands between its braces. -/
theorem not_broken_iff (h : Encodes w text record) :
    ¬ Lines.Broken isLineBreak Text.visible text.toList ↔
      ∀ c ∈ text.toList, isLineBreak c = false := by
  constructor
  · intro hbroken c hc
    by_contra hbreak
    rw [Bool.not_eq_false] at hbreak
    obtain ⟨a, b, hsplit⟩ := List.append_of_mem hc
    have hopens := h.opens
    have hcloses := h.closes
    rw [hsplit] at hopens hcloses
    refine hbroken ⟨a, c, b, hsplit, hbreak, ?_, ?_⟩
    · cases a with
      | nil =>
          obtain rfl : c = '{' := Option.some.inj hopens
          exact absurd hbreak (by decide)
      | cons first a =>
          obtain rfl : first = '{' := Option.some.inj hopens
          rfl
    · cases b using List.reverseRecOn with
      | nil =>
          rw [List.getLast?_append, List.getLast?_singleton] at hcloses
          obtain rfl : c = '}' := Option.some.inj hcloses
          exact absurd hbreak (by decide)
      | append_singleton b last =>
          rw [← List.cons_append, ← List.append_assoc, List.getLast?_concat] at hcloses
          obtain rfl : last = '}' := Option.some.inj hcloses
          rw [List.any_append, List.any_cons]
          simp [show Text.visible '}' = true by decide]
  · rintro hplain ⟨a, c, b, hsplit, hbreak, -, -⟩
    rw [hplain c (by rw [hsplit]; simp)] at hbreak
    exact Bool.noConfusion hbreak

end Encodes

theorem parseLines_records (hlines : ∀ l ∈ lines, Encodes w l.1 l.2) :
    parseLines w objectLine (lines.map Prod.fst) = .ok (lines.map Prod.snd, 0) := by
  induction lines with
  | nil => rfl
  | cons l lines ih =>
      obtain ⟨hl, hlines⟩ := List.forall_mem_cons.mp hlines
      rw [List.map_cons, parseLines_cons_visible hl.visible, hl.strip_eq, hl.loads, ih hlines]
      rfl

theorem newlineLines_join (hlines : ∀ l ∈ lines, Encodes w l.1 l.2) (hne : lines ≠ []) :
    newlineLines (join "\n" (lines.map Prod.fst)) = lines.map fun l ↦ l.1.toList := by
  have hsep : "\n".toList = ['\n'] := by decide
  rw [newlineLines, join, String.toList_ofList, hsep, List.map_map]
  apply List.splitOn_intercalate
  · intro l hl
    obtain ⟨written, hwritten, rfl⟩ := List.mem_map.mp hl
    exact (hlines written hwritten).newline_notMem
  · simpa using hne

/-- The lines that are not blank are the texts that were written. -/
theorem filter_newlineLines (hlines : ∀ l ∈ lines, Encodes w l.1 l.2) :
    (newlineLines (join "\n" (lines.map Prod.fst))).filter (·.any visible) =
      lines.map fun l ↦ l.1.toList := by
  cases lines with
  | nil => decide
  | cons l rest =>
      rw [newlineLines_join hlines (List.cons_ne_nil _ _), List.filter_eq_self]
      intro line hline
      obtain ⟨written, hwritten, rfl⟩ := List.mem_map.mp hline
      exact (hlines written hwritten).visible

theorem unbroken_iff (hlines : ∀ l ∈ lines, Encodes w l.1 l.2) :
    (∀ line ∈ newlineLines (join "\n" (lines.map Prod.fst)),
      ¬ Lines.Broken isLineBreak visible line) ↔
        ∀ l ∈ lines, ∀ c ∈ l.1.toList, isLineBreak c = false := by
  constructor
  · intro hunbroken l hl
    apply (hlines l hl).not_broken_iff.mp
    rw [newlineLines_join hlines (List.ne_nil_of_mem hl)] at hunbroken
    exact hunbroken _ (List.mem_map_of_mem hl)
  · intro hplain line hline hbroken
    have hvisible : line.any visible = true := by
      obtain ⟨a, c, b, rfl, -, ha, -⟩ := hbroken
      rw [List.any_append, ha, Bool.true_or]
    have hwritten : line ∈ (newlineLines (join "\n" (lines.map Prod.fst))).filter
        (·.any visible) := List.mem_filter.mpr ⟨hline, hvisible⟩
    rw [filter_newlineLines hlines] at hwritten
    obtain ⟨l, hl, rfl⟩ := List.mem_map.mp hwritten
    exact (hlines l hl).not_broken_iff.mpr (hplain l hl) hbroken

theorem parseJsonl_join (hlines : ∀ l ∈ lines, Encodes w l.1 l.2)
    (hplain : ∀ l ∈ lines, ∀ c ∈ l.1.toList, isLineBreak c = false) :
    parseJsonl w (join "\n" (lines.map Prod.fst)) = .ok (lines.map Prod.snd, 0) := by
  have hpieces : ((splitLines (join "\n" (lines.map Prod.fst))).filter fun line ↦
      line.toList.any visible) = lines.map Prod.fst := by
    apply List.map_injective_iff.mpr fun _ _ ↦ String.toList_injective
    rw [filter_splitLines, ← newlineLines, List.map_map]
    cases lines with
    | nil => decide
    | cons l rest =>
        have hwhole : ∀ line ∈ (l :: rest).map fun l ↦ l.1.toList,
            line.splitOnP isLineBreak = [line] := by
          intro line hline
          obtain ⟨written, hwritten, rfl⟩ := List.mem_map.mp hline
          exact List.splitOnP_eq_singleton (hplain written hwritten)
        rw [newlineLines_join hlines (List.cons_ne_nil _ _), List.flatMap_congr hwhole,
          List.flatMap_singleton', ← newlineLines_join hlines (List.cons_ne_nil _ _),
          filter_newlineLines hlines]
        rfl
  rw [parseJsonl, parseLines_filter, hpieces, parseLines_records hlines]

/-- The records come back exactly when no text has a line break of its own. -/
theorem reads_back_iff (hx : x ∈ jsonlAdapters) (hlines : ∀ l ∈ lines, Encodes w l.1 l.2)
    (hread : guardOutput w sandbox = .ok (join "\n" (lines.map Prod.fst))) :
    x.collect w sandbox = .ok (lines.map Prod.snd, 0) ↔
      ∀ l ∈ lines, ∀ c ∈ l.1.toList, isLineBreak c = false := by
  constructor
  · intro hback
    have hcount : (newlineLines (join "\n" (lines.map Prod.fst))).countP (·.any visible) =
        lines.length := by
      rw [List.countP_eq_length_filter, filter_newlineLines hlines, List.length_map]
    have haccounts : AccountsForLines w x sandbox (join "\n" (lines.map Prod.fst)) :=
      ⟨_, _, hback, by rw [hcount, List.length_map, Nat.add_zero]⟩
    exact (unbroken_iff hlines).mp ((accountsForLines_iff hx hread).mp haccounts).2
  · intro hplain
    rw [collect_eq hx hread]
    exact parseJsonl_join hlines hplain

/-- The breaks that JSON lets stand in a string: next line, line separator and
paragraph separator. -/
def wideBreaks : List ℕ := [0x85, 0x2028, 0x2029]

theorem isLineBreak_eq_false_iff {c : Char} (h : 32 ≤ c.toNat) :
    isLineBreak c = false ↔ c.toNat ∉ wideBreaks := by
  simp only [isLineBreak, wideBreaks, List.mem_cons, List.not_mem_nil, or_false,
    Bool.or_eq_false_iff, Bool.and_eq_false_iff, decide_eq_false_iff_not, beq_eq_false_iff_ne]
  omega

/-- The parsers give back what was written exactly when no text holds one of these
breaks, and account for the lines of any output exactly when no line is broken
and nothing but a decoding error is raised. -/
theorem jsonl_exact_iff (hx : x ∈ jsonlAdapters) (hread : guardOutput w sandbox = .ok text) :
    (∀ lines : List (String × Record), (∀ l ∈ lines, Encodes w l.1 l.2) → text = join "\n" (lines.map Prod.fst) →
      (x.collect w sandbox = .ok (lines.map Prod.snd, 0) ↔
        ∀ l ∈ lines, ∀ c ∈ l.1.toList, c.toNat ∉ wideBreaks)) ∧
    (AccountsForLines w x sandbox text ↔
      (∀ piece ∈ splitLines text, piece.toList.any visible = true → Caught w (strip piece)) ∧
        ∀ line ∈ newlineLines text, ¬ Lines.Broken isLineBreak visible line) := by
  refine ⟨?_, accountsForLines_iff hx hread⟩
  rintro lines hlines rfl
  rw [reads_back_iff hx hlines hread]
  exact forall₂_congr fun l hl ↦ forall₂_congr fun c hc ↦
    isLineBreak_eq_false_iff ((hlines l hl).escaped c hc)

/-! ## Two records -/

def plainText : String := "\x7b\"a\":1\x7d"

/-- A page has put a line separator into a value. -/
def separatedText : String := "\x7b\"a\":\"\u2028\"\x7d"

/-- What the standard library makes of these texts and of parts of them. -/
def jsonWorld : World :=
  { refusingWorld with
    decode := fun _ bytes ↦
      .ok (if bytes = Utf8.encode separatedText.toList then separatedText else plainText)
    loads := fun text ↦
      if text = plainText then .ok (.obj [("a", .num 1)])
      else if text = separatedText then .ok (.obj [("a", .str "\u2028")])
      else .error .jsonDecodeError }

def printed (text : String) : SandboxResult where
  exitCode := some 0
  timedOut := false
  stdout := Utf8.encode text.toList
  stderr := []

theorem guardOutput_plainText : guardOutput jsonWorld (some (printed plainText)) = .ok plainText := by
  decide +kernel

theorem guardOutput_separatedText :
    guardOutput jsonWorld (some (printed separatedText)) = .ok separatedText := by
  decide +kernel

theorem encodes_plainText : Encodes jsonWorld plainText [("a", .num 1)] where
  loads := by simp [jsonWorld]
  opens := by decide +kernel
  closes := by decide +kernel
  escaped := by decide +kernel

theorem encodes_separatedText : Encodes jsonWorld separatedText [("a", .str "\u2028")] where
  loads := by
    have hne : separatedText ≠ plainText := by decide +kernel
    simp [jsonWorld, hne]
  opens := by decide +kernel
  closes := by decide +kernel
  escaped := by decide +kernel

theorem jsonl_exact_iff_plainText :
    Encodes jsonWorld plainText [("a", .num 1)] ∧
    (∀ lines : List (String × Record), (∀ l ∈ lines, Encodes jsonWorld l.1 l.2) →
      plainText = join "\n" (lines.map Prod.fst) →
        (Katana.adapter.collect jsonWorld (some (printed plainText)) =
            .ok (lines.map Prod.snd, 0) ↔
          ∀ l ∈ lines, ∀ c ∈ l.1.toList, c.toNat ∉ wideBreaks)) ∧
    (AccountsForLines jsonWorld Katana.adapter (some (printed plainText)) plainText ↔
      (∀ piece ∈ splitLines plainText, piece.toList.any visible = true →
          Caught jsonWorld (strip piece)) ∧
        ∀ line ∈ newlineLines plainText, ¬ Lines.Broken isLineBreak visible line) :=
  ⟨encodes_plainText, jsonl_exact_iff (List.mem_cons_of_mem _ List.mem_cons_self)
    guardOutput_plainText⟩

/-- The record is lost, and its line counts as two. -/
theorem not_read_back_separatedText :
    Encodes jsonWorld separatedText [("a", .str "\u2028")] ∧
      guardOutput jsonWorld (some (printed separatedText)) =
        .ok (join "\n" ([(separatedText, [("a", Json.str "\u2028")])].map Prod.fst)) ∧
      Katana.adapter.collect jsonWorld (some (printed separatedText)) ≠
        .ok ([[("a", .str "\u2028")]], 0) ∧
      ¬ AccountsForLines jsonWorld Katana.adapter (some (printed separatedText)) separatedText := by
  have hkatana : Katana.adapter ∈ jsonlAdapters := List.mem_cons_of_mem _ List.mem_cons_self
  have hjoin : join "\n" ([(separatedText, [("a", Json.str "\u2028")])].map Prod.fst) =
      separatedText := by
    simp [join]
  have hread := guardOutput_separatedText
  rw [← hjoin] at hread
  have hwritten : ∀ l ∈ [(separatedText, [("a", Json.str "\u2028")])], Encodes jsonWorld l.1 l.2 :=
    List.forall_mem_singleton.mpr encodes_separatedText
  have hbreak : '\u2028' ∈ separatedText.toList := by decide +kernel
  refine ⟨encodes_separatedText, hread, fun hback ↦ ?_, fun haccounts ↦ ?_⟩
  · have hplain := (reads_back_iff hkatana hwritten hread).mp hback _ List.mem_cons_self _ hbreak
    exact absurd hplain (by decide)
  · have hunbroken := ((accountsForLines_iff hkatana guardOutput_separatedText).mp haccounts).2
    rw [newlineLines, List.splitOn_eq_singleton encodes_separatedText.newline_notMem] at hunbroken
    have hplain := encodes_separatedText.not_broken_iff.mp (hunbroken _ List.mem_cons_self) _ hbreak
    exact absurd hplain (by decide)

end Vantage.Adapters.Oss
