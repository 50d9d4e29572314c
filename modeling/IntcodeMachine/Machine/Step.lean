import IntcodeMachine.Machine.Basic

/-!
# One step

A step fetches the instruction at the program counter, resolves its parameters
on the state before the step to an `Effect`, applies the effect, and moves the
counter past the instruction unless the opcode has done so itself. If anything
fails the machine is faulted. An effect has already happened when only the move
past the instruction fails.
-/
namespace IntcodeMachine

/-- What an instruction does, all its parameters being resolved. -/
inductive Effect
  | store (address : UInt64) (value : Cell)
  | emit (value : Cell)
  | rebase (base : Cell)
  | jump (target : Cell)
  | halt
deriving DecidableEq, Repr

/-- The outcome of an operation that may fail, and the machine after it. -/
abbrev Result (α : Type) := Except Fault α × Machine

/-- A cell used as an address by an instruction. -/
def Fault.addressOf (c : Cell) : Except Fault UInt64 :=
  (Memory.addressOf c).mapError .address

/-- The exact value of an operation, or an overflow. -/
def Fault.orOverflow (value : Option Cell) : Except Fault Cell :=
  match value with
  | some c => .ok c
  | none => .error .overflow

namespace Machine

open Fault (addressOf orOverflow)

variable (m : Machine)

/-- The instruction at the program counter. -/
def fetch : Except Fault Instruction := do
  let address ← addressOf m.counter
  (Instruction.decode (m.memory.cellAt address)).mapError .decode

/-- The raw parameter with an index: the cell that many places after the instruction's. -/
def parameter (index : Nat) : Except Fault Cell := do
  let address ← orOverflow (Cell.ofInt? (m.counter.toInt + (1 + index)))
  return m.memory.cellAt (← addressOf address)

/-- The address at an offset from the relative base. -/
def relative (offset : Cell) : Except Fault Cell := orOverflow (offset.add? m.base)

/-- The value that a source parameter denotes. -/
def source (i : Instruction) (index : Nat) : Except Fault Cell := do
  let raw ← m.parameter index
  match ← (i.mode index).mapError .decode with
  | .position => return m.memory.cellAt (← addressOf raw)
  | .immediate => return raw
  | .relative => return m.memory.cellAt (← addressOf (← m.relative raw))

/-- The address that a target parameter denotes. -/
def target (i : Instruction) (index : Nat) : Except Fault UInt64 := do
  let raw ← m.parameter index
  match ← (i.mode index).mapError .decode with
  | .position => addressOf raw
  | .immediate => throw (.decode (.invalidMode 1 .target))
  | .relative => addressOf (← m.relative raw)

/-- The address of the next instruction in memory. -/
def following (i : Instruction) : Except Fault Cell :=
  orOverflow (Cell.ofInt? (m.counter.toInt + i.width))

/-- A result of two sources, stored at a target. -/
def combine (i : Instruction) (operation : Cell → Cell → Option Cell) : Except Fault Effect := do
  let a ← m.source i 0
  let b ← m.source i 1
  let value ← orOverflow (operation a b)
  return .store (← m.target i 2) value

/-- A jump to the second source if the first one passes the test. -/
def branch (i : Instruction) (test : Cell → Bool) : Except Fault Effect := do
  let condition ← m.source i 0
  let destination ← m.source i 1
  return .jump (← if test condition then pure destination else m.following i)

/-- What an instruction does in this state. -/
def effect (i : Instruction) : Except Fault Effect :=
  match i.opcode with
  | .add => m.combine i Cell.add?
  | .multiply => m.combine i Cell.mul?
  | .input =>
    match m.channel.input with
    | none => .error (.missingInput m.counter)
    | some value => do return .store (← m.target i 0) value
  | .output => do return .emit (← m.source i 0)
  | .jumpIfTrue => m.branch i (· != 0)
  | .jumpIfFalse => m.branch i (· == 0)
  | .lessThan => m.combine i fun a b => some (.ofBool (a < b))
  | .equals => m.combine i fun a b => some (.ofBool (a == b))
  | .adjustBase => do
    let offset ← m.source i 0
    return .rebase (← orOverflow (m.base.add? offset))
  | .halt => .ok .halt

/-- The machine after an effect. -/
def apply : Effect → Machine
  | .store address value =>
    let ⟨memory, channel, counter, base, status, steps, last⟩ := m
    ⟨memory.set address value, channel, counter, base, status, steps, last⟩
  | .emit value =>
    let ⟨memory, channel, counter, base, status, steps, last⟩ := m
    ⟨memory, channel.emit value, counter, base, status, steps, last⟩
  | .rebase base => { m with base }
  | .jump target => { m with counter := target }
  | .halt => { m with status := .halted }

/-- The counter moved past the instruction, unless the opcode manages it. -/
def advance (i : Instruction) : Result Instruction :=
  if i.opcode.managesCounter then (.ok i, m)
  else match m.following i with
    | .ok counter => (.ok i, { m with counter })
    | .error fault => (.error fault, m)

/-- Executes the instruction at the program counter. -/
def execute : Result Instruction :=
  match m.fetch with
  | .error fault => (.error fault, m)
  | .ok i =>
    match m.effect i with
    | .error fault => (.error fault, m)
    | .ok effect => (m.apply effect).advance i

/-- One step: counts and remembers the instruction, or faults the machine. -/
def step : Result Instruction :=
  match m.status with
  | .running =>
    match m.execute with
    | (.ok i, m) => (.ok i, { m with steps := m.steps + 1, last := some i })
    | (.error fault, m) => (.error fault, { m with status := .faulted })
  | status => (.error (.notRunning status), m)

end Machine
end IntcodeMachine
