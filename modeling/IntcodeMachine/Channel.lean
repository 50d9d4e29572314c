import IntcodeMachine.Text.Decimal

/-!
# The channel

What a machine exchanges with its surroundings: one input register, which is
read without being consumed, and the outputs so far, which only grow.
-/
namespace IntcodeMachine

/-- The input register and the outputs so far. -/
structure Channel where
  input : Option Cell := none
  outputs : Array Cell := #[]
deriving DecidableEq, Repr

namespace Channel

/-- The channel with one more output. -/
def emit (c : Channel) (value : Cell) : Channel :=
  let ⟨input, outputs⟩ := c
  ⟨input, outputs.push value⟩

/-- The channel with a value in its register. -/
def setInput (c : Channel) (value : Cell) : Channel := { c with input := some value }

/-- The channel with an empty register. -/
def clearInput (c : Channel) : Channel := { c with input := none }

/-- The most recent output. -/
def lastOutput (c : Channel) : Option Cell := c.outputs.back?

/-- Register and outputs on one line. -/
def summary (c : Channel) : String :=
  let input := match c.input with
    | some value => "Some(" ++ value.text ++ ")"
    | none => "None"
  "IoChannel \x7b input: " ++ input ++
    ", outputs: [" ++ ", ".intercalate (c.outputs.toList.map Cell.text) ++ "] \x7d"

@[simp] theorem outputs_emit (c : Channel) (value : Cell) :
    (c.emit value).outputs = c.outputs.push value := rfl

@[simp] theorem input_emit (c : Channel) (value : Cell) : (c.emit value).input = c.input := rfl

end Channel
end IntcodeMachine
