import IntcodeMachine.Cell

/-!
# Opcodes and addressing modes

The ten operations of the machine, what each parameter is used for, and the
ways in which a parameter can denote a value or an address.
-/
namespace IntcodeMachine

/-- What an instruction does with a parameter: it reads a value through a source, and writes a
result through a target. -/
inductive Role
  | source
  | target
deriving DecidableEq, Repr

/-- How a parameter is resolved: as the address of the value, as the value itself, or as an
address relative to the relative base. -/
inductive Mode
  | position
  | immediate
  | relative
deriving DecidableEq, Repr

/-- The name of a role. -/
def Role.name : Role → String
  | .source => "In"
  | .target => "Out"

/-- The name of a mode. -/
def Mode.name : Mode → String
  | .position => "Position"
  | .immediate => "Immediate"
  | .relative => "Relative"

/-- The operations. -/
inductive Opcode
  | add
  | multiply
  | input
  | output
  | jumpIfTrue
  | jumpIfFalse
  | lessThan
  | equals
  | adjustBase
  | halt
deriving DecidableEq, Repr

namespace Opcode

/-- Every opcode, in the order of the codes. -/
def all : List Opcode :=
  [add, multiply, input, output, jumpIfTrue, jumpIfFalse, lessThan, equals, adjustBase, halt]

/-- The two decimal digits that stand for the opcode. -/
def code : Opcode → Nat
  | add => 1
  | multiply => 2
  | input => 3
  | output => 4
  | jumpIfTrue => 5
  | jumpIfFalse => 6
  | lessThan => 7
  | equals => 8
  | adjustBase => 9
  | halt => 99

/-- The opcode that a number stands for. -/
def ofCode? (n : Int) : Option Opcode := all.find? fun o => (o.code : Int) = n

/-- What each parameter is used for. -/
def roles : Opcode → List Role
  | add | multiply | lessThan | equals => [.source, .source, .target]
  | input => [.target]
  | output | adjustBase => [.source]
  | jumpIfTrue | jumpIfFalse => [.source, .source]
  | halt => []

/-- The opcode decides itself where execution continues. -/
def managesCounter : Opcode → Bool
  | jumpIfTrue | jumpIfFalse | halt => true
  | _ => false

/-- The name of the opcode. -/
def name : Opcode → String
  | add => "Add"
  | multiply => "Mul"
  | input => "Input"
  | output => "Output"
  | jumpIfTrue => "JumpIfTrue"
  | jumpIfFalse => "JumpIfFalse"
  | lessThan => "LessThan"
  | equals => "Equals"
  | adjustBase => "AdjustRelativeBase"
  | halt => "Halt"

/-- The abbreviation of the opcode in a disassembly. -/
def mnemonic : Opcode → String
  | add => "ADD"
  | multiply => "MUL"
  | input => "IN"
  | output => "OUT"
  | jumpIfTrue => "JNZ"
  | jumpIfFalse => "JZ"
  | lessThan => "LT"
  | equals => "EQ"
  | adjustBase => "ARB"
  | halt => "HLT"

theorem mem_all (o : Opcode) : o ∈ all := by cases o <;> decide

theorem code_injective {o p : Opcode} (h : o.code = p.code) : o = p := by
  cases o <;> cases p <;> first | rfl | contradiction

theorem ofCode?_eq_some {n : Int} {o : Opcode} : ofCode? n = some o ↔ (o.code : Int) = n := by
  constructor
  · intro h
    simpa using List.find?_some h
  · rintro rfl
    cases o <;> decide

end Opcode
end IntcodeMachine
