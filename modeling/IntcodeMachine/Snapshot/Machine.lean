import IntcodeMachine.Machine.Run
import IntcodeMachine.Snapshot.Basic

/-!
# Snapshots of machines

The snapshot forms of a machine and of everything it consists of.
-/
namespace IntcodeMachine.Snapshot

instance : Snapshot Role where
  encode r := encodeName r.name
  decode? := decodeName? [.source, .target] Role.name

instance : Snapshot Mode where
  encode m := encodeName m.name
  decode? := decodeName? [.position, .immediate, .relative] Mode.name

instance : Snapshot Opcode where
  encode o := encodeName o.name
  decode? := decodeName? Opcode.all Opcode.name

instance : Snapshot Status where
  encode s := encodeName s.name
  decode? := decodeName? [.running, .halted, .faulted] Status.name

instance : Snapshot Outcome where
  encode
    | .output value => encodeRecord [("Output", encode value)]
    | .halted => encodeName "Halted"
  decode? j :=
    match decodeName? [Outcome.halted] (fun _ => "Halted") j with
    | some outcome => some outcome
    | none =>
      match j with
      | .object [(written, value)] => do
        let name ← Json.text? written
        if name = "Output".toList then (decode? value).map .output else none
      | _ => none

instance : Snapshot ModeDigits where
  encode d := encode [d.first, d.second, d.third]
  decode? j :=
    match (decode? j : Option (List UInt8)) with
    | some [first, second, third] => some ⟨first, second, third⟩
    | _ => none

instance : Snapshot Instruction where
  encode i := encodeRecord [("opcode", encode i.opcode), ("modes", encode i.modes)]
  decode? j :=
    match decodeRecord? [⟨"opcode", false⟩, ⟨"modes", false⟩] j with
    | some [opcode, modes] => do return ⟨← decode? opcode, ← decode? modes⟩
    | _ => none

/-- Addresses are keys of an object, written like numbers and in ascending order; of a key that is
given twice the last value counts. -/
instance : Snapshot (Std.ExtTreeMap UInt64 Cell) where
  encode m := .object (m.toList.map fun (address, value) =>
    (Decimal.digits address.toNat, encode value))
  decode?
    | .object given => do
      let entries ← given.mapM fun (written, value) => do
        let address ← Json.natural? written
        if address < UInt64.size then return (UInt64.ofNat address, ← decode? value) else none
      return .ofList entries
    | _ => none

instance : Snapshot Memory where
  encode m := encodeRecord [("cells", encode m.dense), ("sparse", encode m.sparse)]
  decode? j :=
    match decodeRecord? [⟨"cells", false⟩, ⟨"sparse", false⟩] j with
    | some [cells, sparse] => do return ⟨← decode? cells, ← decode? sparse⟩
    | _ => none

instance : Snapshot Channel where
  encode c := encodeRecord [("input", encode c.input), ("outputs", encode c.outputs)]
  decode? j :=
    match decodeRecord? [⟨"input", true⟩, ⟨"outputs", false⟩] j with
    | some [input, outputs] => do return ⟨← decode? input, ← decode? outputs⟩
    | _ => none

instance : Snapshot Machine where
  encode m := encodeRecord [
    ("mem", encode m.memory), ("io", encode m.channel), ("pc", encode m.counter),
    ("relative_base", encode m.base), ("state", encode m.status), ("steps", encode m.steps),
    ("last_instr", encode m.last)]
  decode? j :=
    match decodeRecord? [⟨"mem", false⟩, ⟨"io", false⟩, ⟨"pc", false⟩, ⟨"relative_base", false⟩,
      ⟨"state", false⟩, ⟨"steps", false⟩, ⟨"last_instr", true⟩] j with
    | some [memory, channel, counter, base, status, steps, last] => do
      return ⟨← decode? memory, ← decode? channel, ← decode? counter, ← decode? base,
        ← decode? status, ← decode? steps, ← decode? last⟩
    | _ => none

end IntcodeMachine.Snapshot
