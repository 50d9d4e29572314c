import IntcodeMachine.Instruction.Decode
import IntcodeMachine.Memory.Basic

/-!
# Disassembly

Code and data share memory, so a disassembly shows at an address what would be
executed there: an instruction with its operands, or data where the cell is no
instruction or a parameter has a mode that it cannot have. The listing of an
image goes through it from entry to entry.
-/
namespace IntcodeMachine.Disassembly

/-- A parameter as it is shown: its cell and how that is resolved. -/
structure Operand where
  mode : Mode
  raw : Cell
deriving DecidableEq, Repr

/-- What stands at an address. -/
inductive Entry
  | data (raw : Cell)
  | instruction (opcode : Opcode) (operands : List Operand)
deriving DecidableEq, Repr

/-- The text filled up with spaces to a least width. -/
def padded (width : Nat) (text : String) : String :=
  text ++ String.ofList (List.replicate (width - text.length) ' ')

/-- The text of an operand: addresses are in brackets. -/
def Operand.text (o : Operand) : String :=
  match o.mode with
  | .position => "[" ++ o.raw.text ++ "]"
  | .immediate => o.raw.text
  | .relative =>
    if o.raw < 0 then "[rb-" ++ Decimal.text o.raw.toInt.natAbs ++ "]" else "[rb+" ++ o.raw.text ++ "]"

namespace Entry

/-- The text of an entry. -/
def text : Entry → String
  | data raw => "DATA " ++ raw.text
  | instruction opcode [] => opcode.mnemonic
  | instruction opcode operands =>
    padded 4 opcode.mnemonic ++ ", ".intercalate (operands.map Operand.text)

/-- The number of cells that an entry takes. -/
def width : Entry → Nat
  | data _ => 1
  | instruction opcode _ => 1 + opcode.roles.length

end Entry

/-- What an address reads as here: zero if it is beyond those that a cell can hold. -/
def cellAt (m : Memory) (address : Nat) : Cell :=
  if address < Memory.addressCount then m.cellAt (UInt64.ofNat address) else 0

/-- The operands of an instruction at an address, if every mode is possible. -/
def operands? (m : Memory) (address : Nat) (i : Instruction) : Option (List Operand) :=
  (List.range i.opcode.roles.length).mapM fun index =>
    match i.mode index with
    | .ok mode => some ⟨mode, cellAt m (address + 1 + index)⟩
    | .error _ => none

/-- What stands at an address. -/
def entryAt (m : Memory) (address : Nat) : Entry :=
  let raw := cellAt m address
  match Instruction.decode raw with
  | .error _ => .data raw
  | .ok i =>
    match operands? m address i with
    | some operands => .instruction i.opcode operands
    | none => .data raw

/-! ## The listing of an image -/

/-- A line of a listing: an entry, its address, and the cells of the image that it takes. -/
structure Line where
  address : Nat
  entry : Entry
  cells : List Cell
deriving DecidableEq, Repr

/-- The text of a line. -/
def Line.text (l : Line) : String :=
  String.ofList (Decimal.padded 5 l.address) ++ ": " ++ padded 24 l.entry.text ++ " ; " ++
    ",".intercalate (l.cells.map Cell.text) ++ "\n"

theorem Entry.width_pos (e : Entry) : 0 < e.width := by
  cases e <;> simp only [width] <;> omega

/-- Goes through the cells `rest` from an address on, after the lines `found`, which are in
reverse order. -/
def sweep (m : Memory) (found : List Line) (address : Nat) (rest : List Cell) : List Line :=
  match rest with
  | [] => found.reverse
  | cell :: cells =>
    let entry := entryAt m address
    sweep m (⟨address, entry, (cell :: cells).take entry.width⟩ :: found) (address + entry.width)
      ((cell :: cells).drop entry.width)
termination_by rest.length
decreasing_by
  have := (entryAt m address).width_pos
  simp only [List.length_drop, List.length_cons]
  omega

/-- The lines of an image. -/
def lines (image : List Cell) : List Line := sweep (.ofImage image) [] 0 image

/-- What a listing starts with. -/
def header : String := "; Intcode Disassembly\n; -------------------\n\n"

/-- The listing of an image. -/
def listing (image : List Cell) : String := header ++ String.join ((lines image).map Line.text)

end IntcodeMachine.Disassembly
