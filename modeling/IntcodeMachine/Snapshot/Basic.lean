import IntcodeMachine.Cell
import IntcodeMachine.Json.Reader
import IntcodeMachine.Json.Writer
import IntcodeMachine.Text.Decimal

/-!
# Snapshots

A snapshot is a value as JSON text. Each type with snapshots says how its values
are encoded and which JSON values it accepts, and accepts more than it writes:
the fields of a record come in any order, with others between them, or as a list
of all of them; a name can stand as the key of an object that holds null.
-/
namespace IntcodeMachine

/-- The types with snapshots. -/
class Snapshot (α : Type) where
  encode : α → Json
  decode? : Json → Option α

namespace Snapshot

variable {α : Type}

/-- The text of a value. -/
def write [Snapshot α] (style : Json.Style) (a : α) : String := (encode a).write style

/-- The value of a text. -/
def read? [Snapshot α] (text : String) : Option α := do decode? (← Json.parse? text)

/-! ## Numbers -/

/-- An integer as JSON. -/
def encodeInt (n : Int) : Json := .number (Decimal.chars n)

/-- The integer that a number denotes. -/
def decodeInt? : Json → Option Int
  | .number written => Json.integer? written
  | _ => none

/-- The natural number below a limit that a number denotes. -/
def decodeBelow? (limit : Nat) (j : Json) : Option Nat := do
  let n ← decodeInt? j
  if 0 ≤ n ∧ n < limit then some n.toNat else none

instance : Snapshot Cell where
  encode c := encodeInt c.toInt
  decode? j := do Cell.ofInt? (← decodeInt? j)

instance : Snapshot UInt64 where
  encode n := encodeInt n.toNat
  decode? j := (decodeBelow? UInt64.size j).map UInt64.ofNat

instance : Snapshot UInt8 where
  encode n := encodeInt n.toNat
  decode? j := (decodeBelow? UInt8.size j).map UInt8.ofNat

/-! ## Options and lists -/

instance [Snapshot α] : Snapshot (Option α) where
  encode
    | some a => encode a
    | none => .null
  decode?
    | .null => some none
    | j => (decode? j).map some

instance [Snapshot α] : Snapshot (List α) where
  encode items := .array (items.map encode)
  decode?
    | .array items => items.mapM decode?
    | _ => none

instance [Snapshot α] : Snapshot (Array α) where
  encode items := encode items.toList
  decode? j := (decode? j : Option (List α)).map List.toArray

/-! ## Names -/

/-- The text that names a value: a string, or the key of an object that holds only null. -/
def nameOf? : Json → Option (List Char)
  | .string written => Json.text? written
  | .object [(written, .null)] => Json.text? written
  | _ => none

/-- A name as JSON. -/
def encodeName (name : String) : Json := .string name.toList

/-- The value with a name. -/
def decodeName? (all : List α) (name : α → String) (j : Json) : Option α := do
  let found ← nameOf? j
  all.find? fun a => (name a).toList == found

/-! ## Records -/

/-- A field of a record. One that may be missing is null then. -/
structure Field where
  name : String
  mayMiss : Bool := false
deriving DecidableEq, Repr

/-- A record as JSON. -/
def encodeRecord (fields : List (String × Json)) : Json :=
  .object (fields.map fun (name, value) => (name.toList, value))

/-- The value of a field. No field can be given twice. -/
def Field.find? (f : Field) (given : List (List Char × Json)) : Option Json :=
  match given.filter (·.1 == f.name.toList) with
  | [] => if f.mayMiss then some .null else none
  | [(_, value)] => some value
  | _ => none

/-- The values of the fields of a record, in their order. -/
def decodeRecord? (fields : List Field) : Json → Option (List Json)
  | .array values => if values.length = fields.length then some values else none
  | .object given => do
    let named ← given.mapM fun (written, value) => (Json.text? written).map (·, value)
    fields.mapM (·.find? named)
  | _ => none

end Snapshot
end IntcodeMachine
