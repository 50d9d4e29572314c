import IntcodeMachine.Disassembly
import IntcodeMachine.Listing
import IntcodeMachine.Snapshot.Machine

/-!
# The workbench

A workbench holds a machine and the program it was loaded with, which is the last
one that could be read, so that the machine can be brought back to its start.
-/
namespace IntcodeMachine

/-- A machine and its program. -/
structure Workbench where
  program : List Cell := []
  machine : Machine := .load [] none
deriving DecidableEq

namespace Workbench

/-- Loads the program that a listing gives and answers its number of cells. -/
def load (w : Workbench) (source : String) : Except ListingError Nat × Workbench :=
  match Listing.parse source with
  | .ok program => (.ok program.length, ⟨program, .load program none⟩)
  | .error e => (.error e, w)

/-- The workbench with its machine at the start of the program. -/
def reset (w : Workbench) : Workbench := { w with machine := .load w.program none }

/-- The workbench with a value in the input register of its machine. -/
def setInput (w : Workbench) (value : Cell) : Workbench :=
  { w with machine := w.machine.setInput value }

/-- Takes one step and answers the mnemonic of the instruction. -/
def step (w : Workbench) : Except Fault String × Workbench :=
  let ⟨program, machine⟩ := w
  let (result, machine) := machine.step
  (result.map (·.opcode.mnemonic), ⟨program, machine⟩)

/-- Runs to the end and answers the number of instructions executed. -/
def run (fuel : Nat) (w : Workbench) : Option (Except Fault UInt64 × Workbench) :=
  let ⟨program, machine⟩ := w
  (machine.run fuel).map fun (result, machine) => (result, ⟨program, machine⟩)

/-- Runs to the next output and answers it, or nothing if the machine halts before. -/
def runToOutput (fuel : Nat) (w : Workbench) : Option (Except Fault (Option Cell) × Workbench) :=
  let ⟨program, machine⟩ := w
  (machine.runToOutput fuel).map fun (result, machine) =>
    (result.map Outcome.output?, ⟨program, machine⟩)

/-- The cells at `count` addresses from `start` on. -/
def memoryRange (w : Workbench) (start count : UInt64) : List Cell :=
  (w.machine.memory.dump start count).map (·.2)

/-- The machine as text. -/
def stateText (w : Workbench) : String := Snapshot.write .compact w.machine

/-- The disassembly of the program that a listing gives. -/
def disassemble (source : String) : Except ListingError String :=
  (Listing.parse source).map Disassembly.listing

end Workbench
end IntcodeMachine
