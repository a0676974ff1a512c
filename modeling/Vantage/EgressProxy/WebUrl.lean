import Vantage.Scope.Engine

/-!
# Request URLs

An absolute URL by its components, which is the form that the two engines
are compared on, and what the parser of the Python engine makes of its text.
-/

namespace Vantage.EgressProxy

open Text IpAddress

/-- The host of a URL: a registered name without escapes, or an address in brackets. -/
inductive HostText where
  | name (text : List Char)
  | literal (text : List Char)

def isSubDelim (c : Char) : Bool :=
  ['!', '$', '&', '\'', '(', ')', '*', '+', ',', ';', '='].contains c

/-- The characters of a registered name. -/
def isNameChar (c : Char) : Bool :=
  Url.isAsciiAlpha c || isAsciiDigit c || ['-', '.', '_', '~'].contains c || isSubDelim c

/-- The characters of an address in brackets. -/
def isLiteralChar (c : Char) : Bool := isNameChar c || c == ':'

def HostText.Valid : HostText → Prop
  | .name text => text ≠ [] ∧ ∀ c ∈ text, isNameChar c = true
  | .literal text => text ≠ [] ∧ (∀ c ∈ text, isLiteralChar c = true) ∧
      Url.checkBracketedHost text = true

instance (host : HostText) : Decidable host.Valid :=
  match host with
  | .name text => inferInstanceAs (Decidable (text ≠ [] ∧ ∀ c ∈ text, isNameChar c = true))
  | .literal text => inferInstanceAs (Decidable (text ≠ [] ∧
      (∀ c ∈ text, isLiteralChar c = true) ∧ Url.checkBracketedHost text = true))

/-- The host without its brackets. -/
def HostText.bare : HostText → List Char
  | .name text => text
  | .literal text => text

def HostText.text : HostText → List Char
  | .name text => text
  | .literal text => '[' :: text ++ [']']

/-- An absolute URL with a supported scheme, a host, an optional port and a path. -/
structure WebUrl where
  scheme : String
  host : HostText
  port : Option (List Char)
  path : String
  scheme_ok : lower scheme ∈ supportedSchemes
  host_ok : host.Valid
  port_ok : ∀ digits ∈ port, ∀ c ∈ digits, isAsciiDigit c = true
  path_start : path = "" ∨ path.toList.head? = some '/'
  path_ok : ∀ c ∈ path.toList, c ≠ '?' ∧ c ≠ '#' ∧ Url.isUnsafe c = false

def WebUrl.portText (u : WebUrl) : List Char :=
  match u.port with
  | none => []
  | some digits => ':' :: digits

/-- The same origin with another path. -/
def WebUrl.withPath (u : WebUrl) (path : String)
    (hstart : path = "" ∨ path.toList.head? = some '/')
    (hok : ∀ c ∈ path.toList, c ≠ '?' ∧ c ≠ '#' ∧ Url.isUnsafe c = false) : WebUrl :=
  { u with path := path, path_start := hstart, path_ok := hok }

/-! ## The text of a URL -/

theorem isLiteralChar_of_isNameChar {c : Char} (h : isNameChar c = true) :
    isLiteralChar c = true := by
  simp [isLiteralChar, h]

theorem isLiteralChar_of_isAsciiDigit {c : Char} (h : isAsciiDigit c = true) :
    isLiteralChar c = true := by
  simp [isLiteralChar, isNameChar, h]

theorem toNat_lt_of_isLiteralChar {c : Char} (h : isLiteralChar c = true) : c.toNat < 128 := by
  simp only [isLiteralChar, isNameChar, isSubDelim, Url.isAsciiAlpha, isAsciiDigit, Bool.or_eq_true,
    Bool.and_eq_true, decide_eq_true_eq, beq_iff_eq, List.contains_iff_mem, char_le_iff] at h
  rcases h with ((((⟨-, h⟩ | ⟨-, h⟩) | ⟨-, h⟩) | h) | h) | rfl
  · exact lt_of_le_of_lt h (by decide)
  · exact lt_of_le_of_lt h (by decide)
  · exact lt_of_le_of_lt h (by decide)
  · revert c
    decide
  · revert c
    decide
  · decide

theorem HostText.Valid.literalChars {host : HostText} (h : host.Valid) :
    ∀ c ∈ host.bare, isLiteralChar c = true := by
  cases host with
  | name text => exact fun c hc ↦ isLiteralChar_of_isNameChar (h.2 c hc)
  | literal text => exact h.2.1

namespace WebUrl

def netloc (u : WebUrl) : List Char := u.host.text ++ u.portText

theorem portText_spec (u : WebUrl) {c : Char} (h : c ∈ u.portText) : isLiteralChar c = true := by
  unfold portText at h
  cases hport : u.port with
  | none => simp [hport] at h
  | some digits =>
      simp only [hport, List.mem_cons] at h
      rcases h with rfl | h
      · decide
      · exact isLiteralChar_of_isAsciiDigit (u.port_ok digits (by simp [hport]) c h)

theorem netloc_spec (u : WebUrl) {c : Char} (h : c ∈ u.netloc) :
    isLiteralChar c = true ∨ c = '[' ∨ c = ']' := by
  have hhost := u.host_ok.literalChars
  rcases List.mem_append.mp h with h | h
  · cases htext : u.host with
    | name text => exact Or.inl (hhost c (by simpa [htext, HostText.text, HostText.bare] using h))
    | literal text =>
        simp only [htext, HostText.text, List.mem_append, List.mem_cons, List.not_mem_nil,
          or_false] at h
        rcases h with (rfl | h) | rfl
        · simp
        · exact Or.inl (hhost c (by simpa [htext, HostText.bare] using h))
        · simp
  · exact Or.inl (u.portText_spec h)

theorem notMem_netloc (u : WebUrl) {c : Char} (hc : isLiteralChar c = false)
    (hopen : c ≠ '[') (hclose : c ≠ ']') : c ∉ u.netloc := by
  intro h
  rcases u.netloc_spec h with h | h | h
  · simp [h] at hc
  · exact hopen h
  · exact hclose h

theorem isAsciiAlpha_of_toLower {c : Char} (h : Url.isAsciiAlpha c.toLower = true) :
    Url.isAsciiAlpha c = true := by
  by_cases hup : 'A' ≤ c ∧ c ≤ 'Z'
  · simp [Url.isAsciiAlpha, hup]
  · have hid : c.toLower = c := dif_neg hup
    rwa [hid] at h

theorem isScheme_scheme (u : WebUrl) : Url.isScheme u.scheme.toList = true := by
  have hlower : ∀ c ∈ u.scheme.toList, Url.isAsciiAlpha c = true := by
    intro c hc
    apply isAsciiAlpha_of_toLower
    have hmem : c.toLower ∈ (lower u.scheme).toList := by
      rw [toList_lower]
      exact List.mem_map_of_mem hc
    have hall : ∀ s ∈ supportedSchemes, ∀ d ∈ s.toList, Url.isAsciiAlpha d = true := by decide
    exact hall _ u.scheme_ok _ hmem
  have hne : u.scheme.toList ≠ [] := by
    intro h
    have hempty : lower u.scheme = "" := by
      apply String.toList_injective
      simp [h]
    have hok := u.scheme_ok
    rw [hempty] at hok
    exact absurd hok (by decide)
  simp only [Url.isScheme, Bool.and_eq_true, List.all_eq_true]
  refine ⟨?_, fun c hc ↦ by simp [Url.isSchemeChar, hlower c hc]⟩
  obtain ⟨c, l, hl⟩ := List.exists_cons_of_ne_nil hne
  simp [hl, hlower c (by simp [hl])]

def toAbsolute (u : WebUrl) : Url.Absolute where
  scheme := u.scheme
  netloc := String.ofList u.netloc
  path := u.path
  tail := ""
  scheme_ok := u.isScheme_scheme
  netloc_ok := by
    intro c hc
    rw [String.toList_ofList] at hc
    have hne : ∀ d, isLiteralChar d = false → d ≠ '[' → d ≠ ']' → c ≠ d := by
      rintro d hd hopen hclose rfl
      exact u.notMem_netloc hd hopen hclose hc
    simp only [Url.isDelimiter, Url.isUnsafe, Bool.or_eq_false_iff, beq_eq_false_iff_ne]
    exact ⟨⟨⟨hne _ (by decide) (by decide) (by decide), hne _ (by decide) (by decide) (by decide)⟩,
      hne _ (by decide) (by decide) (by decide)⟩, ⟨hne _ (by decide) (by decide) (by decide),
      hne _ (by decide) (by decide) (by decide)⟩, hne _ (by decide) (by decide) (by decide)⟩
  path_start := u.path_start
  path_ok := u.path_ok
  tail_start := Url.tail_start_of_empty
  tail_ok := Url.not_isUnsafe_of_empty

def text (u : WebUrl) : String := u.toAbsolute.text

/-- The host as both engines store it. -/
def hostname (u : WebUrl) : String := rstrip (lower (String.ofList u.host.bare)) '.'

/-! ## Parsing the text -/

theorem afterLast_netloc (u : WebUrl) : afterLast '@' u.netloc = u.netloc :=
  afterLast_eq_self (u.notMem_netloc (by decide) (by decide) (by decide))

theorem notMem_bare (u : WebUrl) {c : Char} (hc : isLiteralChar c = false) : c ∉ u.host.bare := by
  intro h
  simp [u.host_ok.literalChars c h] at hc

theorem colon_notMem_name {text : List Char} (h : (HostText.name text).Valid) : ':' ∉ text := by
  intro hc
  have hcolon := h.2 _ hc
  revert hcolon
  decide

/-- The host text and the port text are found again. -/
theorem hostinfo_netloc (u : WebUrl) :
    Url.hostinfo u.netloc = (u.host.bare, u.port.getD []) := by
  have hport : (cut ':' u.portText) = ([], u.port) ∨ (u.portText = [] ∧ u.port = none) := by
    unfold portText
    cases u.port with
    | none => exact Or.inr ⟨rfl, rfl⟩
    | some digits => exact Or.inl (cut_cons_self ':' digits)
  unfold Url.hostinfo
  rw [u.afterLast_netloc]
  cases hhost : u.host with
  | name text =>
      have hopen : '[' ∉ text := by
        simpa [hhost, HostText.bare] using u.notMem_bare (c := '[') (by decide)
      have hopen' : '[' ∉ u.netloc := by
        intro h
        rcases List.mem_append.mp h with h | h
        · exact hopen (by simpa [hhost, HostText.text] using h)
        · exact absurd (u.portText_spec h) (by decide)
      have hcolon := colon_notMem_name (hhost ▸ u.host_ok)
      simp only [cut_eq_none hopen']
      simp only [netloc, hhost, HostText.text, HostText.bare]
      rcases hport with hport | ⟨hempty, hnone⟩
      · rw [cut_append_left hcolon, hport]
        simp
      · rw [hempty, List.append_nil, cut_eq_none hcolon, hnone]
  | literal text =>
      have hclose : ']' ∉ text := by
        simpa [hhost, HostText.bare] using u.notMem_bare (c := ']') (by decide)
      have hnet : u.netloc = '[' :: (text ++ ']' :: u.portText) := by
        simp [netloc, hhost, HostText.text]
      simp only [hnet, cut_cons_self, cut_append hclose, HostText.bare, Option.getD_some]
      rcases hport with hport | ⟨hempty, hnone⟩
      · rw [hport]
      · rw [hempty, hnone]
        rfl

theorem netlocOk_netloc (u : WebUrl) : Url.netlocOk u.netloc = true := by
  have hcheck : Url.checkNetloc u.netloc = true := by
    simp only [Url.checkNetloc, List.all_eq_true, Bool.not_eq_true']
    intro c hc
    have hlt : c.toNat < 128 := by
      rcases u.netloc_spec hc with h | rfl | rfl
      · exact toNat_lt_of_isLiteralChar h
      · decide
      · decide
    have hbig : ∀ n ∈ Url.nfkcUnsafe, 128 ≤ n := by decide
    rw [← Bool.not_eq_true, List.contains_iff_mem]
    intro hmem
    have := hbig _ hmem
    omega
  unfold Url.netlocOk
  rw [hcheck, Bool.and_true]
  cases hhost : u.host with
  | name text =>
      have hnone : ∀ c : Char, isLiteralChar c = false → c ∉ u.netloc := by
        intro c hc h
        rcases List.mem_append.mp h with h | h
        · exact u.notMem_bare hc (by simpa [hhost, HostText.text, HostText.bare] using h)
        · simp [u.portText_spec h] at hc
      have hopen : u.netloc.contains '[' = false := by
        simpa using hnone '[' (by decide)
      have hclose : u.netloc.contains ']' = false := by
        simpa using hnone ']' (by decide)
      rw [hopen, hclose]
      rfl
  | literal text =>
      have hclose : ']' ∉ text := by
        simpa [hhost, HostText.bare] using u.notMem_bare (c := ']') (by decide)
      have hnet : u.netloc = '[' :: (text ++ ']' :: u.portText) := by
        simp [netloc, hhost, HostText.text]
      have hvalid : (HostText.literal text).Valid := hhost ▸ u.host_ok
      have hbracket : Url.checkBracketedNetloc u.netloc = true := by
        unfold Url.checkBracketedNetloc
        rw [u.afterLast_netloc, hnet]
        simp only [cut_cons_self, cut_append hclose, hvalid.2.2, Option.getD_some]
        unfold portText
        cases u.port <;> rfl
      rw [hbracket, hnet]
      simp

/-- The port that `urlsplit` reads, with the default filled in. -/
def pythonPort (u : WebUrl) : Option ℕ :=
  match u.port with
  | some (d :: digits) =>
      if decimal (d :: digits) ≤ 65535 then
        some (Scope.portOrDefault (lower u.scheme) (some (decimal (d :: digits))))
      else none
  | _ => some ((Scope.defaultPort (lower u.scheme)).getD 0)

theorem portOf_netloc (u : WebUrl) :
    (Url.portOf u.netloc).map (Scope.portOrDefault (lower u.scheme)) = u.pythonPort := by
  unfold Url.portOf pythonPort
  rw [u.hostinfo_netloc]
  cases hport : u.port with
  | none => rfl
  | some digits =>
      cases digits with
      | nil => rfl
      | cons d digits =>
          have hdigits : isDigits (d :: digits) = true := by
            simpa [isDigits] using u.port_ok (d :: digits) (by simp [hport])
          simp only [Option.getD_some, hdigits, Bool.true_and, List.isEmpty_cons,
            Bool.false_eq_true, if_false, decide_eq_true_eq]
          split_ifs <;> rfl

theorem hostnameOf_netloc (u : WebUrl) :
    Url.hostnameOf u.netloc = some (u.host.bare.map Char.toLower) := by
  have hne : u.host.bare ≠ [] := by
    have hok := u.host_ok
    cases hhost : u.host with
    | name text => exact (hhost ▸ hok : (HostText.name text).Valid).1
    | literal text => exact (hhost ▸ hok : (HostText.literal text).Valid).1
  unfold Url.hostnameOf
  rw [u.hostinfo_netloc]
  simp [hne, cut_eq_none (u.notMem_bare (c := '%') (by decide))]

/-- What the Python engine reads from the text of the URL. -/
theorem parse_text (u : WebUrl) (method : Option String) : Scope.parse u.text method =
    u.pythonPort.bind fun port ↦ if port = 0 then none else
      some ⟨lower u.scheme, u.hostname, port, Scope.effectivePath u.path,
        Scope.upperMethod method⟩ := by
  unfold text
  rw [Scope.parse_text]
  have hnet : u.toAbsolute.netloc.toList = u.netloc := by simp [toAbsolute]
  have hlower : rstrip (lower (String.ofList (u.host.bare.map Char.toLower))) '.' = u.hostname := by
    have h : String.ofList (u.host.bare.map Char.toLower) = lower (String.ofList u.host.bare) := by
      simp [lower]
    rw [h, lower_lower]
    rfl
  rw [hnet, u.netlocOk_netloc, if_pos rfl, ← u.portOf_netloc, Scope.endpoint, u.hostnameOf_netloc]
  cases Url.portOf u.netloc with
  | none => rfl
  | some explicit =>
      simp only [Option.bind_eq_bind, Option.bind_some, Option.map_some, hlower]
      change Option.map _ (if Scope.portOrDefault (lower u.scheme) explicit = 0 then _ else _) = _
      by_cases hport : Scope.portOrDefault (lower u.scheme) explicit = 0
      · rw [if_pos hport, if_pos hport]
        rfl
      · rw [if_neg hport, if_neg hport]
        rfl

end WebUrl

end Vantage.EgressProxy
