import Vantage.Lib.Dict
import Vantage.Lib.Json
import Vantage.Lib.JsonText

/-!
# Reading JSON

`json.loads` by recursive descent: of members with one key the last counts, an
integer has at most as many digits as `int` converts, and what a number with a
fraction or an exponent stands for is left to `float`.
-/

namespace JsonReader

open Text JsonText

inductive Fault where
  /-- `JSONDecodeError`. -/
  | syntaxError
  /-- The `ValueError` of `int`. -/
  | tooManyDigits
deriving DecidableEq, Repr

def skipBlank (l : List Char) : List Char := l.dropWhile isBlank

/-! ## Strings -/

def hexValue (c : Char) : Option ℕ :=
  if '0' ≤ c ∧ c ≤ '9' then some (c.toNat - 48)
  else if 'a' ≤ c ∧ c ≤ 'f' then some (c.toNat - 87)
  else if 'A' ≤ c ∧ c ≤ 'F' then some (c.toNat - 55)
  else none

/-- The four digits after `\u`. -/
def readUnit : List Char → Option (ℕ × List Char)
  | a :: b :: c :: d :: rest =>
      match hexValue a, hexValue b, hexValue c, hexValue d with
      | some a, some b, some c, some d => some (((a * 16 + b) * 16 + c) * 16 + d, rest)
      | _, _, _, _ => none
  | _ => none

/-- The characters that stand for themselves or a control character after a backslash. -/
def shortEscape : Char → Option Char
  | '"' => some '"'
  | '\\' => some '\\'
  | '/' => some '/'
  | 'b' => some (Char.ofNat 8)
  | 'f' => some (Char.ofNat 12)
  | 'n' => some '\n'
  | 'r' => some '\r'
  | 't' => some '\t'
  | _ => none

def isHigh (n : ℕ) : Bool := 0xd800 ≤ n && n ≤ 0xdbff

def isLow (n : ℕ) : Bool := 0xdc00 ≤ n && n ≤ 0xdfff

/-- A code unit, with the one after it when it is the first half of a pair. A
half without the other is no character. -/
def readEscaped (l : List Char) : Option (Char × List Char) :=
  match readUnit l with
  | none => none
  | some (n, rest) =>
      if isHigh n then
        match rest with
        | '\\' :: 'u' :: rest =>
            match readUnit rest with
            | some (m, rest) =>
                if isLow m then
                  some (Char.ofNat (0x10000 + ((n - 0xd800) * 0x400 + (m - 0xdc00))), rest)
                else none
            | none => none
        | _ => none
      else if isLow n then none
      else some (Char.ofNat n, rest)

/-- One character of a string; control characters must be escaped. -/
def readChar : List Char → Option (Char × List Char)
  | '\\' :: 'u' :: rest => readEscaped rest
  | '\\' :: c :: rest => (shortEscape c).map fun c ↦ (c, rest)
  | c :: rest => if c.toNat < 32 ∨ c = '\\' then none else some (c, rest)
  | [] => none

/-- The text up to the closing quote. -/
def readString : ℕ → List Char → Option (List Char × List Char)
  | 0, _ => none
  | n + 1, l =>
      match l with
      | '"' :: rest => some ([], rest)
      | l =>
          match readChar l with
          | none => none
          | some (c, rest) => (readString n rest).map fun read ↦ (c :: read.1, read.2)

/-! ## Numbers -/

/-- The longest beginning of digits, and what follows it. -/
def splitDigits (l : List Char) : List Char × List Char := l.span isAsciiDigit

/-- A zero or digits that do not start with one. -/
def readInt (l : List Char) : Option (List Char × List Char) :=
  match l with
  | '0' :: rest => some (['0'], rest)
  | l => match splitDigits l with
    | ([], _) => none
    | (digits, rest) => some (digits, rest)

/-- A point and digits, or nothing. -/
def readFraction (l : List Char) : List Char × List Char :=
  match l with
  | '.' :: rest =>
      match splitDigits rest with
      | ([], _) => ([], l)
      | (digits, rest) => ('.' :: digits, rest)
  | _ => ([], l)

def readSign (l : List Char) : List Char × List Char :=
  match l with
  | '+' :: rest => (['+'], rest)
  | '-' :: rest => (['-'], rest)
  | _ => ([], l)

/-- The letter, a sign and digits, or nothing. -/
def readExponent (l : List Char) : List Char × List Char :=
  match l with
  | c :: rest =>
      if c = 'e' ∨ c = 'E' then
        let (sign, rest) := readSign rest
        match splitDigits rest with
        | ([], _) => ([], l)
        | (digits, rest) => (c :: sign ++ digits, rest)
      else ([], l)
  | [] => ([], l)

def readMinus (l : List Char) : List Char × List Char :=
  match l with
  | '-' :: rest => (['-'], rest)
  | _ => ([], l)

def readNumber (float : List Char → PyFloat) (l : List Char) : Except Fault (Json × List Char) :=
  let (sign, rest) := readMinus l
  match readInt rest with
  | none => .error .syntaxError
  | some (digits, rest) =>
      let (fraction, rest) := readFraction rest
      let (exponent, rest) := readExponent rest
      if fraction = [] ∧ exponent = [] then
        if maxIntDigits < digits.length then .error .tooManyDigits
        else .ok (.num (if sign = [] then (decimal digits : ℤ) else -(decimal digits : ℤ)), rest)
      else .ok (.real (float (sign ++ digits ++ fraction ++ exponent)), rest)

/-! ## Values -/

/-- The words that stand for a value. -/
def words (float : List Char → PyFloat) : List (List Char × Json) :=
  [("null".toList, .null), ("true".toList, .bool true), ("false".toList, .bool false),
    ("NaN".toList, .real (float "NaN".toList)),
    ("Infinity".toList, .real (float "Infinity".toList)),
    ("-Infinity".toList, .real (float "-Infinity".toList))]

/-- Members in the order of their first keys, each with its last value. -/
def dictOf (members : List (String × Json)) : List (String × Json) :=
  members.foldl (fun d member ↦ Dict.assign member.1 member.2 d) []

mutual

def readValue (float : List Char → PyFloat) : ℕ → List Char → Except Fault (Json × List Char)
  | 0, _ => .error .syntaxError
  | n + 1, l =>
      match l with
      | '"' :: rest =>
          match readString (rest.length + 1) rest with
          | none => .error .syntaxError
          | some (chars, rest) => .ok (.str (String.ofList chars), rest)
      | '[' :: rest =>
          match skipBlank rest with
          | ']' :: rest => .ok (.arr [], rest)
          | rest => (readItems float n rest).map fun read ↦ (.arr read.1, read.2)
      | '{' :: rest =>
          match skipBlank rest with
          | '}' :: rest => .ok (.obj [], rest)
          | rest => (readMembers float n rest).map fun read ↦ (.obj (dictOf read.1), read.2)
      | l =>
          match (words float).find? fun word ↦ word.1.isPrefixOf l with
          | some word => .ok (word.2, l.drop word.1.length)
          | none => readNumber float l

/-- The items up to the closing bracket. -/
def readItems (float : List Char → PyFloat) : ℕ → List Char → Except Fault (List Json × List Char)
  | 0, _ => .error .syntaxError
  | n + 1, l =>
      match readValue float n l with
      | .error e => .error e
      | .ok (item, rest) =>
          match skipBlank rest with
          | ']' :: rest => .ok ([item], rest)
          | ',' :: rest =>
              (readItems float n (skipBlank rest)).map fun read ↦ (item :: read.1, read.2)
          | _ => .error .syntaxError

/-- The members up to the closing brace. -/
def readMembers (float : List Char → PyFloat) :
    ℕ → List Char → Except Fault (List (String × Json) × List Char)
  | 0, _ => .error .syntaxError
  | n + 1, l =>
      match l with
      | '"' :: rest =>
          match readString (rest.length + 1) rest with
          | none => .error .syntaxError
          | some (key, rest) =>
              match skipBlank rest with
              | ':' :: rest =>
                  match readValue float n (skipBlank rest) with
                  | .error e => .error e
                  | .ok (value, rest) =>
                      match skipBlank rest with
                      | '}' :: rest => .ok ([(String.ofList key, value)], rest)
                      | ',' :: rest =>
                          (readMembers float n (skipBlank rest)).map fun read ↦
                            ((String.ofList key, value) :: read.1, read.2)
                      | _ => .error .syntaxError
              | _ => .error .syntaxError
      | _ => .error .syntaxError

end

/-- `json.loads`. -/
def loads (float : List Char → PyFloat) (text : List Char) : Except Fault Json :=
  match readValue float (2 * text.length + 2) (skipBlank text) with
  | .error e => .error e
  | .ok (value, rest) => if skipBlank rest = [] then .ok value else .error .syntaxError

end JsonReader
