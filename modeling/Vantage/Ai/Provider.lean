import Vantage.Domain.Finding
import Vantage.Lib.Effect

/-!
# Local language models

A reply is free text; the JSON in it is looked for behind code fences and
between the outermost brackets.
-/

namespace Vantage.Ai

open Text

structure LLMResponse where
  text : String
  model : String
  provider : String

/-- Three backticks. -/
def fence : List Char := "```".toList

/-- The text in front of the first occurrence of `sub`. -/
def beforeText (sub : List Char) : List Char → Option (List Char)
  | [] => if sub = [] then some [] else none
  | c :: l =>
      if sub.isPrefixOf (c :: l) then some [] else (beforeText sub l).map (c :: ·)

def removePrefix (p l : List Char) : List Char := if p.isPrefixOf l then l.drop p.length else l

/-- The content of a code fence, without its tag. -/
def unfence (text : List Char) : List Char :=
  if fence.isPrefixOf text then
    let body := (beforeText fence (text.drop 3)).getD text
    stripChars (fun c ↦ c.toNat == 96 || c == '\n' || c == ' ') (removePrefix "json".toList body)
  else text

/-- From the first opening to the last closing bracket, if they are in this order. -/
def outermost (opener closer : Char) (text : List Char) : Option (List Char) :=
  let inner := ((text.dropWhile (· != opener)).reverse.dropWhile (· != closer)).reverse
  if inner = [] then none else some inner

/-- The first bracketed part that is JSON; `None` is the answer when there is none. -/
def bracketed (loads : String → Except PyError Json) (text : List Char) :
    List (Char × Char) → Except PyError Json
  | [] => .ok .null
  | (opener, closer) :: rest =>
      match outermost opener closer text with
      | none => bracketed loads text rest
      | some inner =>
          match loads (String.ofList inner) with
          | .error .jsonDecodeError => bracketed loads text rest
          | result => result

/-- `LLMResponse.json`, over the reader of the `json` module. -/
def LLMResponse.json (loads : String → Except PyError Json) (r : LLMResponse) :
    Except PyError Json :=
  let text := unfence (stripChars isSpace r.text.toList)
  match loads (String.ofList text) with
  | .error .jsonDecodeError => bracketed loads text [('\x7b', '\x7d'), ('[', ']')]
  | result => result

/-- A provider; it is shown the findings in its prompt. -/
structure LLMProvider (σ : Type) where
  name : String
  modelId : String
  modelLicense : String
  available : Effect PyError σ Bool
  complete : List UnifiedFinding → Effect PyError σ LLMResponse

/-- AI disabled. -/
def nullProvider {σ : Type} : LLMProvider σ where
  name := "null"
  modelId := "none"
  modelLicense := "n/a"
  available := pure false
  complete _ := pure ⟨"", "none", "null"⟩

end Vantage.Ai
