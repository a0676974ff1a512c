import Vantage.Lib.Text

/-!
# JSON values and their text

The text is that of `json.dumps` with sorted keys, compact separators and
every character outside printable ASCII escaped. What the code does with
values it has read is that of Python: `str`, truth values and `int`.
-/

/-- What the code uses of a floating-point number. -/
structure PyFloat where
  repr : String
  nonzero : Bool
  /-- The integer part, which infinities and NaN do not have. -/
  trunc : Option ℤ
deriving DecidableEq, Repr

inductive Json where
  | null
  | bool (b : Bool)
  | num (n : ℤ)
  | real (x : PyFloat)
  | str (s : String)
  | arr (items : List Json)
  | obj (members : List (String × Json))

namespace Json

def hex4 (n : ℕ) : List Char :=
  let digits := Nat.toDigits 16 n
  List.replicate (4 - digits.length) '0' ++ digits

def escapeUnit (n : ℕ) : List Char := '\\' :: 'u' :: hex4 n

/-- A character above U+FFFF is written as its two surrogates. -/
def escapeChar (c : Char) : List Char :=
  let n := c.toNat
  if c = '"' ∨ c = '\\' then ['\\', c]
  else if c = '\n' then ['\\', 'n']
  else if c = '\r' then ['\\', 'r']
  else if c = '\t' then ['\\', 't']
  else if n = 12 then ['\\', 'f']
  else if n = 8 then ['\\', 'b']
  else if 32 ≤ n ∧ n ≤ 126 then [c]
  else if n < 0x10000 then escapeUnit n
  else
    escapeUnit (0xd800 + (n - 0x10000) / 0x400) ++ escapeUnit (0xdc00 + (n - 0x10000) % 0x400)

def quoted (s : String) : List Char := '"' :: s.toList.flatMap escapeChar ++ ['"']

def enclose (opening closing : Char) (parts : List (List Char)) : List Char :=
  opening :: List.intercalate [','] parts ++ [closing]

mutual

def dumps : Json → List Char
  | .null => "null".toList
  | .bool b => if b then "true".toList else "false".toList
  | .num n => (toString n).toList
  | .real x => x.repr.toList
  | .str s => quoted s
  | .arr items => enclose '[' ']' (dumpsItems items)
  | .obj members =>
      let parts := (dumpsMembers members).insertionSort fun a b ↦ a.1 ≤ b.1
      enclose '{' '}' (parts.map fun part ↦ quoted part.1 ++ ':' :: part.2)

def dumpsItems : List Json → List (List Char)
  | [] => []
  | item :: items => dumps item :: dumpsItems items

def dumpsMembers : List (String × Json) → List (String × List Char)
  | [] => []
  | (key, value) :: members => (key, dumps value) :: dumpsMembers members

end

def ofOption (s : Option String) : Json := s.elim .null .str

def texts (l : List String) : Json := .arr (l.map .str)

/-! ## Values in Python -/

open Text

mutual

/-- `repr` of a value. -/
def pyRepr : Json → String
  | .null => "None"
  | .bool b => if b then "True" else "False"
  | .num n => toString n
  | .real x => x.repr
  | .str s => Text.pyRepr s
  | .arr items => "[" ++ join ", " (pyReprItems items) ++ "]"
  | .obj members => "\x7b" ++ join ", " (pyReprMembers members) ++ "\x7d"

def pyReprItems : List Json → List String
  | [] => []
  | item :: items => pyRepr item :: pyReprItems items

def pyReprMembers : List (String × Json) → List String
  | [] => []
  | (key, value) :: members => (Text.pyRepr key ++ ": " ++ pyRepr value) :: pyReprMembers members

end

/-- `str` of a value. -/
def pyStr : Json → String
  | .str s => s
  | value => pyRepr value

def truthy : Json → Bool
  | .null => false
  | .bool b => b
  | .num n => n ≠ 0
  | .real x => x.nonzero
  | .str s => s ≠ ""
  | .arr items => !items.isEmpty
  | .obj members => !members.isEmpty

/-- `d.get(key)` of an object, whose keys are distinct. -/
def lookup (members : List (String × Json)) (key : String) : Option Json :=
  (members.find? (·.1 = key)).map Prod.snd

/-- `d.get(key, default)`. -/
def getD (members : List (String × Json)) (key : String) (default : Json) : Json :=
  (lookup members key).getD default

/-- `d.get(key)`, which is `None` for an absent key. -/
def get (members : List (String × Json)) (key : String) : Json := getD members key .null

/-- `a or b`. -/
def orElse (a b : Json) : Json := if a.truthy then a else b

/-- The members of an object, and none of any other value. -/
def membersOf : Json → List (String × Json)
  | .obj members => members
  | _ => []

def isObj : Json → Bool
  | .obj _ => true
  | _ => false

def str? : Json → Option String
  | .str s => some s
  | _ => none

end Json
