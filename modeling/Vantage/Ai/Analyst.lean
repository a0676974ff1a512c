import Vantage.Ai.Provider

/-!
# The security analyst

Annotations on findings, kept next to them; references to unknown findings are
dropped.
-/

namespace Vantage.Ai

open Text

structure AiAnnotation where
  findingId : String
  priorityRank : Option ℤ := none
  likelyFalsePositive : Bool := false
  explanation : String := ""
  remediation : String := ""
  groupId : Option String := none
  rationale : String := ""

structure AiAssessment where
  provider : String
  model : String
  modelLicense : String
  annotations : List (String × AiAnnotation) := []
  groups : List (String × List String) := []
  enabled : Bool := true
  notes : List String := []

def AiAssessment.disabled : AiAssessment where
  provider := "null"
  model := "none"
  modelLicense := "n/a"
  enabled := false

/-- `_int_or_none`; not all that `isdigit` accepts can be converted. -/
def intOrNone : Json → Except PyError (Option ℤ)
  | .num n => .ok (some n)
  | .str s =>
      if isDigitText ((stripChars isSpace s.toList).dropWhile (· == '-')) then
        match parseInt s with
        | some n => .ok (some n)
        | none => .error .valueError
      else .ok none
  | _ => .ok none

def takeChars (n : ℕ) (s : String) : String := String.ofList (s.toList.take n)

/-- `d[key] = value`. -/
def assign {α : Type} (key : String) (value : α) (d : List (String × α)) : List (String × α) :=
  if d.any (·.1 = key) then d.map fun entry ↦ if entry.1 = key then (key, value) else entry
  else d ++ [(key, value)]

/-- `d.setdefault(key, []).append(value)`. -/
def appendTo (key value : String) (d : List (String × List String)) : List (String × List String) :=
  if d.any (·.1 = key) then d.map fun entry ↦
    if entry.1 = key then (key, entry.2 ++ [value]) else entry
  else d ++ [(key, [value])]

def annotationOf (findingId : String) (item : List (String × Json)) :
    Except PyError AiAnnotation := do
  let rank ← intOrNone (Json.get item "priority_rank")
  pure
    { findingId := findingId
      priorityRank := rank
      likelyFalsePositive := (Json.get item "likely_false_positive").truthy
      explanation := takeChars 2000 (Json.getD item "explanation" (.str "")).pyStr
      remediation := takeChars 2000 (Json.getD item "remediation" (.str "")).pyStr
      groupId := if (Json.get item "group_id").truthy then some (Json.get item "group_id").pyStr
        else none
      rationale := takeChars 1000 (Json.getD item "rationale" (.str "")).pyStr }

/-- The annotations of the items of the reply, and how many items name no finding of the input. -/
def annotate (validIds : List String) : List Json → List (String × AiAnnotation) × ℕ →
    Except PyError (List (String × AiAnnotation) × ℕ)
  | [], acc => .ok acc
  | .obj item :: items, (annotations, dropped) =>
      let findingId := (Json.getD item "id" (.str "")).pyStr
      if findingId ∉ validIds then annotate validIds items (annotations, dropped + 1)
      else
        match annotationOf findingId item with
        | .error e => .error e
        | .ok annotation => annotate validIds items (assign findingId annotation annotations, dropped)
  | _ :: items, acc => annotate validIds items acc

def groupsOf (annotations : List (String × AiAnnotation)) : List (String × List String) :=
  annotations.foldl (fun groups entry ↦
    match entry.2.groupId with
    | some group => if group = "" then groups else appendTo group entry.1 groups
    | none => groups) []

/-- The assessment that a parsed reply gives. -/
def assessmentOf (base : AiAssessment) (validIds : List String) : Json → Except PyError AiAssessment
  | .obj data =>
      let items := match Json.get data "findings" with
        | .arr items => items
        | _ => []
      match annotate validIds items ([], 0) with
      | .error e => .error e
      | .ok (annotations, dropped) =>
          .ok { base with
            annotations := annotations
            groups := groupsOf annotations
            notes := if dropped = 0 then base.notes else base.notes ++
              ["Dropped " ++ toString dropped ++ " AI reference(s) to unknown finding ids."] }
  | _ =>
      .ok { base with
        enabled := false
        notes := base.notes ++ ["AI output was not valid JSON; ignored."] }

variable {σ : Type}

/-- `SecurityAnalyst.assess`; only an exception of `complete` is caught. -/
def assess (loads : String → Except PyError Json) (provider : LLMProvider σ)
    (findings : List UnifiedFinding) : Effect PyError σ AiAssessment := do
  if findings.isEmpty then pure .disabled
  else
    let available ← provider.available
    if !available then pure .disabled
    else
      let reply ← Effect.recover (do
        let resp ← provider.complete findings
        pure (some resp)) fun _ ↦ pure none
      match reply with
      | none => pure .disabled
      | some resp => do
          let data ← Effect.ofExcept (resp.json loads)
          Effect.ofExcept <| assessmentOf
            { provider := provider.name
              model := provider.modelId
              modelLicense := provider.modelLicense }
            (findings.map UnifiedFinding.id) data

/-- The rank that the analyst gave to a finding; rank 0 counts as none. -/
def rankOf (assessment : AiAssessment) (finding : UnifiedFinding) : ℤ :=
  match (assessment.annotations.find? (·.1 = finding.id)).bind fun entry ↦ entry.2.priorityRank with
  | some rank => if rank = 0 then 10000 else rank
  | none => 10000

/-- `SecurityAnalyst.prioritized_order`; the sorts are stable. -/
def prioritizedOrder (findings : List UnifiedFinding) (assessment : AiAssessment) :
    List UnifiedFinding :=
  if assessment.enabled then
    findings.insertionSort fun f g ↦
      toLex (rankOf assessment f, -f.riskScore) ≤ toLex (rankOf assessment g, -g.riskScore)
  else findings.insertionSort fun f g ↦ g.riskScore ≤ f.riskScore

end Vantage.Ai
