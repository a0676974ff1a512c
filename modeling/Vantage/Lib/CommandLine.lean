import Mathlib.Tactic

/-!
# Options on a command line

A tool reads its arguments from left to right. An option takes the argument
after it, whatever that is, unless it is a switch; the options end at the first
argument that stops them.
-/

namespace CommandLine

/-- An option, with its value unless it is a switch. -/
abbrev Setting := String × Option String

structure Grammar where
  isSwitch : String → Bool
  /-- The options end here. -/
  stops : String → Bool

variable (g : Grammar)

/-- The options that are read, given one that waits for its value, and the arguments left. -/
def readFrom : Option String → List String → List Setting × List String
  | none, [] => ([], [])
  | some flag, [] => ([(flag, none)], [])
  | some flag, value :: args =>
      let (options, rest) := readFrom none args
      ((flag, some value) :: options, rest)
  | none, arg :: args =>
      if g.stops arg then ([], arg :: args)
      else if g.isSwitch arg then
        let (options, rest) := readFrom none args
        ((arg, none) :: options, rest)
      else readFrom (some arg) args

def read (args : List String) : List Setting × List String := readFrom g none args

def render (options : List Setting) : List String := options.flatMap fun o ↦ o.1 :: o.2.toList

/-- The option is written as the tool expects it. -/
def Fits (o : Setting) : Prop := g.stops o.1 = false ∧ (g.isSwitch o.1 = true ↔ o.2 = none)

/-- An option without its value. -/
def shape (o : Setting) : String × Bool := (o.1, o.2.isNone)

@[simp] theorem render_append (a b : List Setting) : render (a ++ b) = render a ++ render b :=
  List.flatMap_append

variable {g}

theorem fits_iff {o : Setting} :
    Fits g o ↔ g.stops (shape o).1 = false ∧ g.isSwitch (shape o).1 = (shape o).2 := by
  obtain ⟨flag, value⟩ := o
  refine and_congr_right fun _ ↦ ?_
  cases value <;> simp [shape]

/-- A tool reads the options that were written. -/
theorem read_render {options : List Setting} {rest : List String} (h : ∀ o ∈ options, Fits g o)
    (hrest : ∀ arg ∈ rest.head?, g.stops arg = true) :
    read g (render options ++ rest) = (options, rest) := by
  unfold read
  induction options with
  | nil =>
      cases rest with
      | nil => rfl
      | cons arg args => simp [render, readFrom, hrest arg rfl]
  | cons o options ih =>
      obtain ⟨⟨hstops, hswitch⟩, hoptions⟩ := List.forall_mem_cons.mp h
      obtain ⟨flag, value⟩ := o
      have hrender : render ((flag, value) :: options) ++ rest =
          flag :: (value.toList ++ (render options ++ rest)) := by
        simp [render]
      rw [hrender, readFrom, hstops]
      cases value with
      | none =>
          simp only [hswitch.mpr rfl, Option.toList, List.nil_append, ih hoptions, if_true,
            Bool.false_eq_true, if_false]
      | some v =>
          have hno : g.isSwitch flag = false := by
            simpa using hswitch
          simp only [hno, Option.toList, List.cons_append, List.nil_append, readFrom,
            ih hoptions, Bool.false_eq_true, if_false]

end CommandLine
