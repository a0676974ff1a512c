import Vantage.Lib.IpAddress

/-!
# Splitting and joining URLs

`urlsplit`, the accessors of its result and `urljoin`, as in the Python 3.12
module `urllib.parse`. A `ValueError` of the module is `none` here.
-/

namespace Url

open Text

structure SplitResult where
  scheme : String
  netloc : String
  path : String
  query : String
  fragment : String
deriving DecidableEq, Repr

/-! ## `urlsplit` -/

def isControlOrSpace (c : Char) : Bool := c.toNat ≤ 32

def isUnsafe (c : Char) : Bool := c == '\t' || c == '\r' || c == '\n'

def isAsciiAlpha (c : Char) : Bool := ('a' ≤ c && c ≤ 'z') || ('A' ≤ c && c ≤ 'Z')

def isSchemeChar (c : Char) : Bool :=
  isAsciiAlpha c || isAsciiDigit c || c == '+' || c == '-' || c == '.'

/-- Ends the network location of a URL. -/
def isDelimiter (c : Char) : Bool := c == '/' || c == '?' || c == '#'

def isScheme (s : List Char) : Bool := (s.head?.any isAsciiAlpha) && s.all isSchemeChar

/-- The scheme, in lower case, and the text after its colon. -/
def splitScheme (url : List Char) : List Char × List Char :=
  match cut ':' url with
  | (s, some rest) => if isScheme s then (s.map Char.toLower, rest) else ([], url)
  | (_, none) => ([], url)

/-- The network location after `//`, and the text that follows it. -/
def splitNetloc (url : List Char) : List Char × List Char :=
  match url with
  | '/' :: '/' :: rest => (rest.takeWhile (!isDelimiter ·), rest.dropWhile (!isDelimiter ·))
  | _ => ([], url)

/-- The code points outside ASCII whose NFKC form contains one of `/?#@:`. -/
def nfkcUnsafe : List ℕ :=
  [0x2047, 0x2048, 0x2049, 0x2100, 0x2101, 0x2105, 0x2106, 0x2a74, 0xfe13, 0xfe16, 0xfe55, 0xfe56,
    0xfe5f, 0xfe6b, 0xff03, 0xff0f, 0xff1a, 0xff1f, 0xff20]

def checkNetloc (netloc : List Char) : Bool := netloc.all fun c ↦ !nfkcUnsafe.contains c.toNat

/-- A host in brackets is an IPv6 address or of the form `v<hex>.<text>`. -/
def checkBracketedHost (hostname : List Char) : Bool :=
  match hostname with
  | 'v' :: rest =>
      let digits := rest.takeWhile fun c ↦ (IpAddress.hexValue c).isSome
      match rest.dropWhile fun c ↦ (IpAddress.hexValue c).isSome with
      | '.' :: _ :: _ => !digits.isEmpty
      | _ => false
  | _ =>
      match IpAddress.ipAddress (String.ofList hostname) with
      | some (.v6 _ _) => true
      | _ => false

def checkBracketedNetloc (netloc : List Char) : Bool :=
  match cut '[' (afterLast '@' netloc) with
  | (before, some bracketed) =>
      let (hostname, port) := cut ']' bracketed
      before.isEmpty && (port.getD []).head?.all (· == ':') && checkBracketedHost hostname
  | (hostinfo, none) => checkBracketedHost (cut ':' hostinfo).1

def netlocOk (netloc : List Char) : Bool :=
  (netloc.contains '[' == netloc.contains ']') &&
    (!netloc.contains '[' || checkBracketedNetloc netloc) && checkNetloc netloc

def urlsplit (url : String) : Option SplitResult :=
  let cleaned := (url.toList.dropWhile isControlOrSpace).filter (!isUnsafe ·)
  let (scheme, rest) := splitScheme cleaned
  let (netloc, rest) := splitNetloc rest
  if netlocOk netloc then
    let (rest, fragment) := cut '#' rest
    let (path, query) := cut '?' rest
    some ⟨String.ofList scheme, String.ofList netloc, String.ofList path,
      String.ofList (query.getD []), String.ofList (fragment.getD [])⟩
  else none

/-! ## Host and port -/

/-- The host text and the port text of a network location. -/
def hostinfo (netloc : List Char) : List Char × List Char :=
  let info := afterLast '@' netloc
  match cut '[' info with
  | (_, some bracketed) =>
      let (hostname, rest) := cut ']' bracketed
      (hostname, (cut ':' (rest.getD [])).2.getD [])
  | (_, none) =>
      let (hostname, port) := cut ':' info
      (hostname, port.getD [])

/-- The host in lower case, except for the zone of a scoped address. -/
def hostnameOf (netloc : List Char) : Option (List Char) :=
  let host := (hostinfo netloc).1
  if host.isEmpty then none
  else
    let (name, zone) := cut '%' host
    some (name.map Char.toLower ++ (match zone with | none => [] | some z => '%' :: z))

/-- The port; the outer `none` is the `ValueError` of a port that is not a
number in range, the inner one an absent port. -/
def portOf (netloc : List Char) : Option (Option ℕ) :=
  let port := (hostinfo netloc).2
  if port.isEmpty then some none
  else if isDigits port && decimal port ≤ 65535 then some (some (decimal port))
  else none

def SplitResult.hostname (r : SplitResult) : Option String :=
  (hostnameOf r.netloc.toList).map String.ofList

def SplitResult.port (r : SplitResult) : Option (Option ℕ) := portOf r.netloc.toList

/-! ## `urljoin` -/

def usesRelative : List String :=
  ["", "ftp", "http", "gopher", "nntp", "imap", "wais", "file", "https", "shttp", "mms", "prospero",
    "rtsp", "rtsps", "rtspu", "sftp", "svn", "svn+ssh", "ws", "wss"]

def usesNetloc : List String :=
  ["", "ftp", "http", "gopher", "nntp", "telnet", "imap", "wais", "file", "mms", "https", "shttp",
    "snews", "prospero", "rtsp", "rtsps", "rtspu", "rsync", "svn", "svn+ssh", "sftp", "nfs", "git",
    "git+ssh", "ws", "wss", "itms-services"]

def usesParams : List String :=
  ["", "ftp", "hdl", "prospero", "http", "imap", "https", "shttp", "rtsp", "rtsps", "rtspu", "sip",
    "sips", "mms", "sftp", "tel"]

def urlunsplit (r : SplitResult) : String :=
  let path := r.path.toList
  let url :=
    if r.netloc ≠ "" ∨ (r.scheme ≠ "" ∧ r.scheme ∈ usesNetloc ∧ path.take 2 ≠ ['/', '/']) then
      let path := if !path.isEmpty && path.head? != some '/' then '/' :: path else path
      '/' :: '/' :: r.netloc.toList ++ path
    else path
  let url := if r.scheme = "" then url else r.scheme.toList ++ ':' :: url
  let url := if r.query = "" then url else url ++ '?' :: r.query.toList
  let url := if r.fragment = "" then url else url ++ '#' :: r.fragment.toList
  String.ofList url

/-- Separate the parameters of the last path segment. -/
def splitParams (scheme : String) (path : List Char) : List Char × List Char :=
  if scheme ∈ usesParams then
    let last := afterLast '/' path
    match cut ';' last with
    | (seg, some params) => (path.take (path.length - last.length) ++ seg, params)
    | (_, none) => (path, [])
  else (path, [])

def joinParams (path params : List Char) : List Char :=
  if params.isEmpty then path else path ++ ';' :: params

/-- Resolve `.` and `..`; a `..` at the root is dropped. -/
def resolveSegments (segments : List (List Char)) : List (List Char) :=
  let resolved := segments.foldl (fun acc seg ↦
    if seg = ['.', '.'] then acc.dropLast else if seg = ['.'] then acc else acc ++ [seg]) []
  if segments.getLast? = some ['.'] ∨ segments.getLast? = some ['.', '.'] then resolved ++ [[]]
  else resolved

/-- The segments of a path that is relative to a base path. -/
def relativeSegments (bpath path : List Char) : List (List Char) :=
  let base := bpath.splitOn '/'
  let base := if base.getLast? = some [] then base else base.dropLast
  let segments := base ++ path.splitOn '/'
  segments.take 1 ++ ((segments.drop 1).dropLast.filter (!·.isEmpty)) ++
    (segments.drop 1).getLast?.toList

def joinPath (bpath path : List Char) : List Char :=
  let segments := if path.head? = some '/' then path.splitOn '/' else relativeSegments bpath path
  let joined := List.intercalate ['/'] (resolveSegments segments)
  if joined.isEmpty then ['/'] else joined

/-- `urljoin`; the scheme of the base is the default scheme of the reference. -/
def urljoin (base url : String) : Option String := do
  if base = "" then return url
  if url = "" then return base
  let b ← urlsplit base
  let u ← urlsplit url
  let scheme := if u.scheme = "" then b.scheme else u.scheme
  if scheme ≠ b.scheme ∨ scheme ∉ usesRelative then return url
  let (bpath, bparams) := splitParams scheme b.path.toList
  let (path, params) := splitParams scheme u.path.toList
  let rebuild := fun netloc path params query ↦
    urlunsplit ⟨scheme, netloc, String.ofList (joinParams path params), query, u.fragment⟩
  if scheme ∈ usesNetloc ∧ u.netloc ≠ "" then return rebuild u.netloc path params u.query
  let netloc := if scheme ∈ usesNetloc then b.netloc else u.netloc
  if path.isEmpty && params.isEmpty then
    return rebuild netloc bpath bparams (if u.query = "" then b.query else u.query)
  return rebuild netloc (joinPath bpath path) params u.query

/-! ## Absolute URLs by their components -/

/-- An absolute URL as its scheme, network location, path, and the query and
fragment with their delimiters. -/
structure Absolute where
  scheme : String
  netloc : String
  path : String
  tail : String
  scheme_ok : isScheme scheme.toList = true
  netloc_ok : ∀ c ∈ netloc.toList, isDelimiter c = false ∧ isUnsafe c = false
  path_start : path = "" ∨ path.toList.head? = some '/'
  path_ok : ∀ c ∈ path.toList, c ≠ '?' ∧ c ≠ '#' ∧ isUnsafe c = false
  tail_start : tail = "" ∨ tail.toList.head? = some '?' ∨ tail.toList.head? = some '#'
  tail_ok : ∀ c ∈ tail.toList, isUnsafe c = false

theorem tail_start_of_empty :
    "" = "" ∨ "".toList.head? = some '?' ∨ "".toList.head? = some '#' := Or.inl rfl

theorem not_isUnsafe_of_empty : ∀ c ∈ "".toList, isUnsafe c = false := by simp

theorem isSchemeChar_spec {c : Char} (h : isSchemeChar c = true) : 32 < c.toNat ∧ c ≠ ':' := by
  simp only [isSchemeChar, isAsciiAlpha, isAsciiDigit, Bool.or_eq_true, Bool.and_eq_true,
    decide_eq_true_eq, beq_iff_eq, char_le_iff] at h
  constructor
  · rcases h with ((((⟨h, -⟩ | ⟨h, -⟩) | ⟨h, -⟩) | rfl) | rfl) | rfl
    · exact lt_of_lt_of_le (by decide) h
    · exact lt_of_lt_of_le (by decide) h
    · exact lt_of_lt_of_le (by decide) h
    all_goals decide
  · rintro rfl
    revert h
    decide

theorem not_isUnsafe_of_lt {c : Char} (h : 32 < c.toNat) : isUnsafe c = false := by
  simp only [isUnsafe, Bool.or_eq_false_iff, beq_eq_false_iff_ne]
  refine ⟨⟨?_, ?_⟩, ?_⟩ <;> rintro rfl <;> exact absurd h (by decide)

namespace Absolute

def text (u : Absolute) : String := u.scheme ++ "://" ++ u.netloc ++ u.path ++ u.tail

def query (u : Absolute) : String := String.ofList ((cut '?' (cut '#' u.tail.toList).1).2.getD [])

def fragment (u : Absolute) : String := String.ofList ((cut '#' u.tail.toList).2.getD [])

theorem toList_text (u : Absolute) : u.text.toList =
    u.scheme.toList ++ ':' :: '/' :: '/' :: (u.netloc.toList ++ (u.path.toList ++ u.tail.toList)) := by
  simp [text]

theorem scheme_spec (u : Absolute) {c : Char} (h : c ∈ u.scheme.toList) :
    32 < c.toNat ∧ c ≠ ':' := by
  have hok := u.scheme_ok
  simp only [isScheme, Bool.and_eq_true, List.all_eq_true] at hok
  exact isSchemeChar_spec (hok.2 c h)

theorem scheme_ne_nil (u : Absolute) : u.scheme.toList ≠ [] := by
  intro h
  have hok := u.scheme_ok
  simp [isScheme, h] at hok

/-- Splitting drops nothing from the text of an absolute URL. -/
theorem cleaned_text (u : Absolute) :
    (u.text.toList.dropWhile isControlOrSpace).filter (!isUnsafe ·) = u.text.toList := by
  have hdrop : u.text.toList.dropWhile isControlOrSpace = u.text.toList := by
    rw [toList_text]
    obtain ⟨c, s, hs⟩ := List.exists_cons_of_ne_nil u.scheme_ne_nil
    have hc := (u.scheme_spec (c := c) (by simp [hs])).1
    simp [hs, isControlOrSpace, Nat.not_le.mpr hc]
  rw [hdrop, List.filter_eq_self, toList_text]
  intro c hc
  simp only [List.mem_append, List.mem_cons] at hc
  simp only [Bool.not_eq_true']
  rcases hc with hc | rfl | rfl | rfl | hc | hc | hc
  · exact not_isUnsafe_of_lt (u.scheme_spec hc).1
  · rfl
  · rfl
  · rfl
  · exact (u.netloc_ok c hc).2
  · exact (u.path_ok c hc).2.2
  · exact u.tail_ok c hc

theorem delimiter_after_netloc (u : Absolute) :
    ∀ c ∈ (u.path.toList ++ u.tail.toList).head?, isDelimiter c = true := by
  intro c hc
  rcases u.path_start with hp | hp
  · rcases u.tail_start with ht | ht | ht
    · simp [hp, ht] at hc
    · simp only [hp, String.toList_empty, List.nil_append, ht, Option.mem_some_iff] at hc
      simp [← hc, isDelimiter]
    · simp only [hp, String.toList_empty, List.nil_append, ht, Option.mem_some_iff] at hc
      simp [← hc, isDelimiter]
  · simp only [List.head?_append, hp, Option.some_or, Option.mem_some_iff] at hc
    simp [← hc, isDelimiter]

theorem splitNetloc_text (u : Absolute) :
    splitNetloc ('/' :: '/' :: (u.netloc.toList ++ (u.path.toList ++ u.tail.toList))) =
      (u.netloc.toList, u.path.toList ++ u.tail.toList) := by
  have hall : ∀ c ∈ u.netloc.toList, (!isDelimiter c) = true := by
    intro c hc
    simp [(u.netloc_ok c hc).1]
  simp only [splitNetloc, List.takeWhile_append_of_pos hall, List.dropWhile_append_of_pos hall]
  have hend := u.delimiter_after_netloc
  cases hrest : u.path.toList ++ u.tail.toList with
  | nil => simp
  | cons c rest =>
      rw [hrest] at hend
      simp [hend c rfl]

/-- The path of the text ends where the tail begins. -/
theorem cut_query_text (u : Absolute) :
    cut '?' (cut '#' (u.path.toList ++ u.tail.toList)).1 =
      (u.path.toList, (cut '?' (cut '#' u.tail.toList).1).2) := by
  have hfrag : '#' ∉ u.path.toList := fun h ↦ (u.path_ok _ h).2.1 rfl
  have hquery : '?' ∉ u.path.toList := fun h ↦ (u.path_ok _ h).1 rfl
  rw [cut_append_left hfrag, cut_append_left hquery]
  rcases u.tail_start with ht | ht | ht
  · simp [ht]
  · obtain ⟨t, ht⟩ := List.head?_eq_some_iff.mp ht
    have hne : '#' ∉ ['?'] := by decide
    have hcut : cut '#' u.tail.toList = ('?' :: (cut '#' t).1, (cut '#' t).2) := by
      rw [ht]
      exact cut_append_left hne t
    simp [hcut]
  · obtain ⟨t, ht⟩ := List.head?_eq_some_iff.mp ht
    simp [ht]

/-- Splitting the text of an absolute URL returns its components, or fails on
its network location alone. -/
theorem urlsplit_text (u : Absolute) : urlsplit u.text =
    if netlocOk u.netloc.toList then
      some ⟨lower u.scheme, u.netloc, u.path, u.query, u.fragment⟩
    else none := by
  have hcolon : ':' ∉ u.scheme.toList := fun h ↦ (u.scheme_spec h).2 rfl
  have hfrag : '#' ∉ u.path.toList := fun h ↦ (u.path_ok _ h).2.1 rfl
  have hscheme : splitScheme u.text.toList = (u.scheme.toList.map Char.toLower,
      '/' :: '/' :: (u.netloc.toList ++ (u.path.toList ++ u.tail.toList))) := by
    simp only [splitScheme, toList_text, cut_append hcolon, u.scheme_ok, if_true]
  simp only [urlsplit, u.cleaned_text, hscheme, u.splitNetloc_text, u.cut_query_text]
  simp only [cut_append_left hfrag, lower, query, fragment, String.ofList_toList]

end Absolute

end Url
