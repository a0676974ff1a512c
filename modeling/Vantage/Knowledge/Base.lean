import Vantage.Lib.DictOfSets
import Vantage.Scan.Orchestrator

/-!
# The knowledge base

Engines ask the knowledge base of a scan whether an endpoint has been tested
for a class. Whoever calls, and in whatever order, a test is handed out at most
once, and the size is the number of different pairs.
-/

namespace Vantage.Scan

open Findings

namespace RequestKnowledgeBase

/-! ## The operations -/

def seen (kb : RequestKnowledgeBase) (key testClass : String) : Bool :=
  testClass ∈ (kb.get? key).getD []

/-- A test that has not been seen is marked. -/
def shouldTest (kb : RequestKnowledgeBase) (key testClass : String) : Bool × RequestKnowledgeBase :=
  if kb.seen key testClass then (false, kb) else (true, kb.mark key testClass)

/-- What engines ask. -/
inductive Call where
  | mark (key testClass : String)
  | seen (key testClass : String)
  | shouldTest (key testClass : String)
  | size
  deriving DecidableEq

inductive Answer where
  | none
  | bool (b : Bool)
  | count (n : ℕ)
  deriving DecidableEq

def perform (kb : RequestKnowledgeBase) : Call → Answer × RequestKnowledgeBase
  | .mark key testClass => (.none, kb.mark key testClass)
  | .seen key testClass => (.bool (kb.seen key testClass), kb)
  | .shouldTest key testClass =>
      (.bool (kb.shouldTest key testClass).1, (kb.shouldTest key testClass).2)
  | .size => (.count kb.size, kb)

/-- The calls of all engines in the order in which they come, with the answers. -/
def performAll (kb : RequestKnowledgeBase) : List Call → List Answer × RequestKnowledgeBase
  | [] => ([], kb)
  | call :: calls =>
      let (answers, kb') := (kb.perform call).2.performAll calls
      ((kb.perform call).1 :: answers, kb')

/-! ## What the knowledge base stands for -/

/-- The pair that a call records. -/
def Call.records : Call → Option (String × String)
  | .mark key testClass => some (key, testClass)
  | .shouldTest key testClass => some (key, testClass)
  | .seen _ _ => Option.none
  | .size => Option.none

/-- The pairs that have been tested when these calls have been made. -/
def tested (calls : List Call) : Finset (String × String) := (calls.filterMap Call.records).toFinset

/-- The answer when some pairs have been tested. -/
def respond (pairs : Finset (String × String)) : Call → Answer
  | .mark _ _ => .none
  | .seen key testClass => .bool ((key, testClass) ∈ pairs)
  | .shouldTest key testClass => .bool ((key, testClass) ∉ pairs)
  | .size => .count pairs.card

theorem tested_nil : tested [] = ∅ := rfl

theorem tested_cons (call : Call) (calls : List Call) :
    tested (call :: calls) = call.records.toFinset ∪ tested calls := by
  cases call with
  | mark key testClass => exact List.toFinset_cons
  | seen key testClass => exact (Finset.empty_union _).symm
  | shouldTest key testClass => exact List.toFinset_cons
  | size => exact (Finset.empty_union _).symm

variable {kb : RequestKnowledgeBase} {pairs : Finset (String × String)}

theorem holds_mark (h : kb.Holds pairs) (key testClass : String) :
    (kb.mark key testClass).Holds (insert (key, testClass) pairs) := h.add key testClass

theorem seen_eq (h : kb.Holds pairs) (key testClass : String) :
    kb.seen key testClass = decide ((key, testClass) ∈ pairs) :=
  decide_eq_decide.mpr (h.mem_iff key testClass)

/-- One call answers as the pairs say, and records its pair. -/
theorem perform_spec (h : kb.Holds pairs) (call : Call) :
    (kb.perform call).1 = respond pairs call ∧
      (kb.perform call).2.Holds (call.records.toFinset ∪ pairs) := by
  cases call with
  | mark key testClass => exact ⟨rfl, holds_mark h key testClass⟩
  | seen key testClass =>
      refine ⟨congrArg Answer.bool (seen_eq h key testClass), ?_⟩
      rwa [Call.records, Option.toFinset_none, Finset.empty_union]
  | shouldTest key testClass =>
      rw [perform, shouldTest, seen_eq h]
      by_cases hmem : (key, testClass) ∈ pairs
      · have hsame : insert (key, testClass) pairs = pairs := Finset.insert_eq_of_mem hmem
        rw [if_pos (decide_eq_true hmem)]
        refine ⟨congrArg Answer.bool (decide_eq_false (not_not_intro hmem)).symm, ?_⟩
        change Dict.Holds kb (insert (key, testClass) pairs)
        rwa [hsame]
      · rw [if_neg (by rwa [decide_eq_true_eq])]
        refine ⟨congrArg Answer.bool (decide_eq_true hmem).symm, ?_⟩
        exact holds_mark h key testClass
  | size =>
      refine ⟨congrArg Answer.count h.card, ?_⟩
      rwa [Call.records, Option.toFinset_none, Finset.empty_union]

/-- The answers of the knowledge base that holds the pairs. -/
def responses (pairs : Finset (String × String)) : List Call → List Answer
  | [] => []
  | call :: calls => respond pairs call :: responses (call.records.toFinset ∪ pairs) calls

theorem performAll_spec (h : kb.Holds pairs) (calls : List Call) :
    (kb.performAll calls).1 = responses pairs calls ∧
      (kb.performAll calls).2.Holds (tested calls ∪ pairs) := by
  induction calls generalizing kb pairs with
  | nil => exact ⟨rfl, by rwa [tested_nil, Finset.empty_union]⟩
  | cons call calls ih =>
      obtain ⟨hanswer, hnext⟩ := perform_spec h call
      obtain ⟨hanswers, hlast⟩ := ih hnext
      refine ⟨congrArg₂ List.cons hanswer hanswers, ?_⟩
      have hpairs : tested calls ∪ (call.records.toFinset ∪ pairs) =
          tested (call :: calls) ∪ pairs := by
        rw [tested_cons, Finset.union_left_comm, Finset.union_assoc]
      exact hpairs ▸ hlast

/-- Each answer is given by what has been recorded before. -/
theorem responses_at (pairs : Finset (String × String)) (earlier : List Call) (call : Call)
    (later : List Call) : (responses pairs (earlier ++ call :: later))[earlier.length]? =
      some (respond (tested earlier ∪ pairs) call) := by
  induction earlier generalizing pairs with
  | nil =>
      rw [tested_nil, Finset.empty_union]
      rfl
  | cons first earlier ih =>
      rw [List.cons_append, responses, List.length_cons, List.getElem?_cons_succ, ih, tested_cons,
        Finset.union_left_comm, Finset.union_assoc]

/-! ## Handing out tests -/

/-- The test that a call was told to make. -/
def granted : Call → Answer → Option (String × String)
  | .shouldTest key testClass, .bool true => some (key, testClass)
  | _, _ => Option.none

/-- The tests that were handed out. -/
def handedOut (calls : List Call) (answers : List Answer) : List (String × String) :=
  (calls.zip answers).filterMap fun e ↦ granted e.1 e.2

theorem handedOut_cons (call : Call) (calls : List Call) (answer : Answer) (answers : List Answer) :
    handedOut (call :: calls) (answer :: answers) =
      (granted call answer).toList ++ handedOut calls answers := by
  rw [handedOut, List.zip_cons_cons, List.filterMap_cons]
  cases granted call answer with
  | none => rfl
  | some pair => rfl

/-- A call hands out its pair when the pair is new. -/
theorem granted_respond_iff {pair : String × String} (call : Call) :
    granted call (respond pairs call) = some pair ↔
      call = .shouldTest pair.1 pair.2 ∧ pair ∉ pairs := by
  obtain ⟨key, testClass⟩ := pair
  cases call with
  | mark key' testClass' => simp [granted]
  | seen key' testClass' => simp [granted]
  | size => simp [granted]
  | shouldTest key' testClass' =>
      rw [Call.shouldTest.injEq]
      constructor
      · intro h
        by_cases hmem : (key', testClass') ∈ pairs
        · simp [granted, respond, hmem] at h
        · simp only [granted, respond, hmem, not_false_eq_true, decide_true, Option.some.injEq,
            Prod.mk.injEq] at h
          obtain ⟨rfl, rfl⟩ := h
          exact ⟨⟨rfl, rfl⟩, hmem⟩
      · rintro ⟨⟨rfl, rfl⟩, hmem⟩
        simp [granted, respond, hmem]

/-- What is handed out was asked for when it had not been recorded. -/
theorem mem_handedOut_iff {pair : String × String} (pairs : Finset (String × String))
    (calls : List Call) : pair ∈ handedOut calls (responses pairs calls) ↔
      ∃ earlier later, calls = earlier ++ .shouldTest pair.1 pair.2 :: later ∧
        pair ∉ tested earlier ∪ pairs := by
  induction calls generalizing pairs with
  | nil => simp [handedOut]
  | cons call calls ih =>
      rw [responses, handedOut_cons, List.mem_append, Option.mem_toList, granted_respond_iff, ih]
      constructor
      · rintro (⟨rfl, hnew⟩ | ⟨earlier, later, rfl, hnew⟩)
        · exact ⟨[], calls, rfl, by rwa [tested_nil, Finset.empty_union]⟩
        · refine ⟨call :: earlier, later, rfl, ?_⟩
          rwa [tested_cons, Finset.union_assoc, Finset.union_left_comm]
      · rintro ⟨earlier, later, hcalls, hnew⟩
        cases earlier with
        | nil =>
            obtain ⟨rfl, rfl⟩ := List.cons.inj hcalls
            rw [tested_nil, Finset.empty_union] at hnew
            exact Or.inl ⟨rfl, hnew⟩
        | cons first earlier =>
            obtain ⟨rfl, rfl⟩ := List.cons.inj hcalls
            refine Or.inr ⟨earlier, later, rfl, ?_⟩
            rwa [tested_cons, Finset.union_assoc, Finset.union_left_comm] at hnew

theorem nodup_handedOut (pairs : Finset (String × String)) (calls : List Call) :
    (handedOut calls (responses pairs calls)).Nodup := by
  induction calls generalizing pairs with
  | nil => exact List.nodup_nil
  | cons call calls ih =>
      rw [responses, handedOut_cons]
      cases hgranted : granted call (respond pairs call) with
      | none => exact ih _
      | some pair =>
          obtain ⟨rfl, -⟩ := (granted_respond_iff call).mp hgranted
          refine List.nodup_cons.mpr ⟨fun hagain ↦ ?_, ih _⟩
          -- the pair has been recorded by the call that was told to test it
          obtain ⟨earlier, later, -, hnew⟩ := (mem_handedOut_iff _ calls).mp hagain
          apply hnew
          simp [Call.records]

/-! ## The law -/

/-- The answers to the calls, and what the knowledge base holds after them. -/
structure Cooperates (calls : List Call) (answers : List Answer) (kb : RequestKnowledgeBase) :
    Prop where
  length : answers.length = calls.length
  answer : ∀ earlier call later, calls = earlier ++ call :: later →
    answers[earlier.length]? = some (respond (tested earlier) call)
  once : (handedOut calls answers).Nodup
  first : ∀ pair, pair ∈ handedOut calls answers ↔
    ∃ earlier later, calls = earlier ++ .shouldTest pair.1 pair.2 :: later ∧ pair ∉ tested earlier
  seen : ∀ key testClass, kb.seen key testClass = true ↔ (key, testClass) ∈ tested calls
  size : kb.size = (tested calls).card

theorem length_responses (pairs : Finset (String × String)) (calls : List Call) :
    (responses pairs calls).length = calls.length := by
  induction calls generalizing pairs with
  | nil => rfl
  | cons call calls ih => exact congrArg (· + 1) (ih _)

/-- Whatever is called in whatever order, the answers are those of the set of the pairs that
were recorded before, and no test is handed out twice. -/
theorem cooperates (calls : List Call) :
    Cooperates calls (performAll .empty calls).1 (performAll .empty calls).2 := by
  obtain ⟨hanswers, hholds⟩ := performAll_spec Dict.holds_empty calls
  rw [Finset.union_empty] at hholds
  rw [hanswers]
  refine ⟨length_responses ∅ calls, ?_, nodup_handedOut ∅ calls, fun pair ↦ ?_, ?_, hholds.card⟩
  · rintro earlier call later rfl
    rw [responses_at, Finset.union_empty]
  · simp only [mem_handedOut_iff, Finset.union_empty]
  · intro key testClass
    rw [seen_eq hholds, decide_eq_true_eq]

/-- What a scan has marked. -/
theorem size_markAll (observations : List Observation) : (markAll .empty observations).size =
    (observations.map fun obs ↦ (coverageKey obs.location, obs.vulnClass)).toFinset.card := by
  have hholds : ∀ (kb : RequestKnowledgeBase) (pairs : Finset (String × String)), kb.Holds pairs →
      (kb.markAll observations).Holds
        ((observations.map fun obs ↦ (coverageKey obs.location, obs.vulnClass)).toFinset ∪
          pairs) := by
    induction observations with
    | nil => exact fun kb pairs h ↦ by rwa [List.map_nil, List.toFinset_nil, Finset.empty_union]
    | cons obs observations ih =>
        intro kb pairs h
        rw [List.map_cons, List.toFinset_cons, Finset.insert_union, ← Finset.union_insert]
        exact ih _ _ (holds_mark h _ _)
  have hempty := hholds .empty ∅ Dict.holds_empty
  rw [Finset.union_empty] at hempty
  exact hempty.card

end RequestKnowledgeBase

end Vantage.Scan
