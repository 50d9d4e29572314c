import IntcodeMachine.Instruction.Opcode
import IntcodeMachine.Text.Decimal

/-!
# Instructions

An instruction cell holds the opcode in its two lowest decimal digits and, above
them, one digit for the addressing mode of each parameter. Digits are those of
the remainder modulo 100000, so that negative cells have them too.
-/
namespace IntcodeMachine

/-- Why a cell is no instruction, or a parameter has no mode. -/
inductive DecodeError
  | unknownOpcode (code : Int)
  | invalidMode (digit : UInt8) (role : Role)
  | noSuchParameter (opcode : Opcode) (index : Nat)
deriving DecidableEq, Repr

/-- The word for a role in messages. -/
def Role.word : Role → String
  | .source => "input"
  | .target => "output"

/-- The wording of a decoding error. -/
def DecodeError.message : DecodeError → String
  | .unknownOpcode code => "unknown opcode " ++ Decimal.text code
  | .invalidMode digit role =>
    "invalid addressing mode " ++ Decimal.text digit.toNat ++ " for " ++ role.word ++ " parameter"
  | .noSuchParameter opcode index =>
    "opcode " ++ Decimal.text opcode.code ++ " has no parameter " ++ Decimal.text index

/-- The mode a digit stands for. A target cannot be immediate. -/
def Mode.ofDigit (digit : UInt8) (role : Role) : Except DecodeError Mode :=
  if digit = 0 then .ok .position
  else if digit = 1 ∧ role = .source then .ok .immediate
  else if digit = 2 then .ok .relative
  else .error (.invalidMode digit role)

/-- The mode digits of the three possible parameters. -/
structure ModeDigits where
  first : UInt8
  second : UInt8
  third : UInt8
deriving DecidableEq, Repr

/-- The digit of the parameter with an index. -/
def ModeDigits.get (d : ModeDigits) : Nat → UInt8
  | 0 => d.first
  | 1 => d.second
  | _ => d.third

/-- A decoded instruction. Digits of parameters that the opcode does not have are kept. -/
structure Instruction where
  opcode : Opcode
  modes : ModeDigits
deriving DecidableEq, Repr

namespace Instruction

/-- The number of cells: the instruction's own and one per parameter. -/
def width (i : Instruction) : Nat := 1 + i.opcode.roles.length

/-- The mode of the parameter with an index. -/
def mode (i : Instruction) (index : Nat) : Except DecodeError Mode :=
  match i.opcode.roles[index]? with
  | none => .error (.noSuchParameter i.opcode index)
  | some role => Mode.ofDigit (i.modes.get index) role

/-- The decimal digit of `n` at the place with a unit, a power of ten. -/
def digitAt (n unit : Int) : UInt8 := (n / unit % 10).toNat.toUInt8

/-- Decodes a cell. -/
def decode (cell : Cell) : Except DecodeError Instruction :=
  let n := cell.toInt
  match Opcode.ofCode? (n % 100) with
  | none => .error (.unknownOpcode (n % 100))
  | some opcode => .ok ⟨opcode, digitAt n 100, digitAt n 1000, digitAt n 10000⟩

end Instruction
end IntcodeMachine
