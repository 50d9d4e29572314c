import IntcodeMachine.Proofs.Machine.Operations
import IntcodeMachine.Proofs.Snapshot.Lawful
import IntcodeMachine.Snapshot.Breakout
import IntcodeMachine.Snapshot.Machine
import Std.Data.ExtTreeMap.Lemmas

/-! # Snapshots lose nothing

Every type with snapshots has lawful ones: a machine, all that it consists of,
tiles and joysticks.  A value of such a type can be read from its text, whatever
the style, and a text that is accepted can be written any number of times
(`Lossless`).

A machine can therefore be replaced by what its snapshot reads as at any moment,
between two steps as between two runs, and nothing that is done with it afterwards
comes out otherwise (`reloading_iff_session`, by induction on what is done).
-/
namespace IntcodeMachine.Snapshot

/-! ## Names -/

instance : Lawful Role :=
  lawful_of_names (fun _ => rfl) (fun _ => rfl) (fun r => by cases r <;> decide) (by decide)
    (by decide)

instance : Lawful Mode :=
  lawful_of_names (fun _ => rfl) (fun _ => rfl) (fun m => by cases m <;> decide) (by decide)
    (by decide)

instance : Lawful Opcode :=
  lawful_of_names (fun _ => rfl) (fun _ => rfl) Opcode.mem_all (by decide) (by decide)

instance : Lawful Status :=
  lawful_of_names (fun _ => rfl) (fun _ => rfl) (fun s => by cases s <;> decide) (by decide)
    (by decide)

instance : Lawful Tile :=
  lawful_of_names (fun _ => rfl) (fun _ => rfl) (fun t => by cases t <;> decide) (by decide)
    (by decide)

instance : Lawful Joystick :=
  lawful_of_names (fun _ => rfl) (fun _ => rfl) (fun j => by cases j <;> decide) (by decide)
    (by decide)

/-- The object that an output is written as is no name, since it holds a number instead of null. -/
theorem decode?_encode_output (value : Cell) :
    decode? (encode (Outcome.output value)) = some (Outcome.output value) := by
  change ((Json.text? "Output".toList).bind fun name =>
    if name = "Output".toList then (decode? (encode value)).map Outcome.output else none) = _
  rw [text?_plain (by decide), decode?_encode]
  rfl

instance : Lawful Outcome where
  plain_encode
    | .output value => plain_encodeRecord (by simp [Json.PlainText]) (by simp)
    | .halted => .string (by decide)
  decode?_encode
    | .output value => decode?_encode_output value
    | .halted => by rfl

/-! ## Machines -/

instance : Lawful ModeDigits where
  plain_encode d := plain_encode [d.first, d.second, d.third]
  decode?_encode d := by
    unfold instModeDigits
    simp only [decode?_encode]

instance : Lawful Instruction where
  plain_encode i := plain_encodeRecord (by simp [Json.PlainText]) (by simp)
  decode?_encode i := by
    unfold instInstruction
    simp only
    rw [decodeRecord?_encodeRecord rfl (by decide) (by decide)]
    simp

instance : Lawful (Option Cell) := lawful_option fun _ => Json.noConfusion

instance : Lawful (Option Instruction) := lawful_option fun _ => Json.noConfusion

/-- A map is the map of its entries. -/
theorem ofList_toList (m : Std.ExtTreeMap UInt64 Cell) : Std.ExtTreeMap.ofList m.toList = m := by
  refine Std.ExtTreeMap.ext_getElem? fun address => ?_
  cases found : m[address]? with
  | none =>
    refine Std.ExtTreeMap.getElem?_ofList_of_contains_eq_false (Bool.eq_false_iff.mpr fun h => ?_)
    obtain ⟨⟨_, value⟩, mem, rfl⟩ := List.mem_map.mp (List.contains_iff_mem.mp h)
    rw [Std.ExtTreeMap.mem_toList_iff_getElem?_eq_some.mp mem] at found
    cases found
  | some value =>
    exact Std.ExtTreeMap.getElem?_ofList_of_mem Std.ReflCmp.compare_self
      Std.ExtTreeMap.distinct_keys_toList
      (Std.ExtTreeMap.mem_toList_iff_getElem?_eq_some.mpr found)

/-- The entry that a field of an object of addresses stands for. -/
def entryOf? (field : List Char × Json) : Option (UInt64 × Cell) := do
  let address ← Json.natural? field.1
  if address < UInt64.size then return (UInt64.ofNat address, ← decode? field.2) else none

theorem entryOf?_entry (address : UInt64) (value : Cell) :
    entryOf? (Decimal.digits address.toNat, encode value) = some (address, value) := by
  simp only [entryOf?, Json.natural?_digits, Option.bind_eq_bind, Option.bind_some,
    if_pos address.toNat_lt_size, decode?_encode, UInt64.ofNat_toNat]
  rfl

instance : Lawful (Std.ExtTreeMap UInt64 Cell) where
  plain_encode m := by
    refine .object (List.forall_mem_map.mpr fun _ _ => ?_) (List.forall_mem_map.mpr fun _ _ => ?_)
    · exact Json.plainText_digits _
    · exact plain_encode _
  decode?_encode m := by
    have entries : (m.toList.map fun (address, value) =>
        (Decimal.digits address.toNat, encode value)).mapM entryOf? = some m.toList := by
      rw [List.mapM_map]
      exact mapM_eq_some_self fun e _ => entryOf?_entry e.1 e.2
    change (List.mapM entryOf? _ >>= fun entries => some (Std.ExtTreeMap.ofList entries)) = some m
    rw [entries]
    exact congrArg some (ofList_toList m)

instance : Lawful Memory where
  plain_encode m := plain_encodeRecord (by simp [Json.PlainText]) (by simp)
  decode?_encode m := by
    unfold instMemory
    simp only
    rw [decodeRecord?_encodeRecord rfl (by decide) (by decide)]
    simp

instance : Lawful Channel where
  plain_encode c := plain_encodeRecord (by simp [Json.PlainText]) (by simp)
  decode?_encode c := by
    unfold instChannel
    simp only
    rw [decodeRecord?_encodeRecord rfl (by decide) (by decide)]
    simp

instance : Lawful Machine where
  plain_encode m := plain_encodeRecord (by simp [Json.PlainText]) (by simp)
  decode?_encode m := by
    unfold instMachine
    simp only
    rw [decodeRecord?_encodeRecord rfl (by decide) (by decide)]
    simp

/-! ## Writing again -/

variable {α : Type}

/-- A snapshot of the value that a text is read as. -/
def rewrite (α : Type) [Snapshot α] (style : Json.Style) (text : String) : Option String :=
  (read? text : Option α).map (write style)

/-- **Snapshots lose nothing.** A value is read from its text, and a text that is accepted can be
written again and again, in any styles, with no other outcome than writing it once in the last. -/
structure Lossless (α : Type) [Snapshot α] : Prop where
  read_write (style : Json.Style) (a : α) : read? (write style a) = some a
  rewrite_rewrite (style style' : Json.Style) (text : String) :
    (rewrite α style text).bind (rewrite α style') = rewrite α style' text

theorem lossless [Snapshot α] [Lawful α] : Lossless α where
  read_write := read?_write
  rewrite_rewrite style style' text := by
    unfold rewrite
    cases (read? text : Option α) with
    | none => rfl
    | some a => simp only [Option.map_some, Option.bind_some, read?_write]

/-! ## Reloading machines -/

/-- What happens to a machine: an operation, or it is replaced by what its snapshot reads as. -/
inductive Moment
  | operation (o : Machine.Operation)
  | reload (style : Json.Style)
deriving DecidableEq

/-- The operation, if it is one. -/
def Moment.operation? : Moment → Option Machine.Operation
  | .operation o => some o
  | .reload _ => none

/-- What happens to the machine, one after the other, gives these answers and leaves this
machine. -/
inductive Reloading : Machine → List Moment → List Machine.Answer → Machine → Prop
  | nil (m : Machine) : Reloading m [] [] m
  | operation {m m' m'' : Machine} {o : Machine.Operation} {answer : Machine.Answer}
      {moments : List Moment} {answers : List Machine.Answer}
      (first : Returns (m.perform o) (answer, m')) (rest : Reloading m' moments answers m'') :
      Reloading m (.operation o :: moments) (answer :: answers) m''
  | reload {m m' m'' : Machine} {style : Json.Style} {moments : List Moment}
      {answers : List Machine.Answer} (reads : read? (write style m) = some m')
      (rest : Reloading m' moments answers m'') : Reloading m (.reload style :: moments) answers m''

/-- **A machine that is reloaded at any moments does what it would do without.** -/
theorem reloading_iff_session {m m' : Machine} {moments : List Moment}
    {answers : List Machine.Answer} :
    Reloading m moments answers m' ↔
      m.Session (moments.filterMap Moment.operation?) answers m' := by
  constructor
  · intro reloading
    induction reloading with
    | nil m => exact .nil m
    | operation first _ ih => exact .cons first ih
    | reload reads _ ih =>
      -- What is read is the machine itself.
      obtain rfl := Option.some.inj ((read?_write _ _).symm.trans reads)
      exact ih
  · intro session
    induction moments generalizing m answers with
    | nil =>
      cases session
      exact .nil _
    | cons moment moments ih =>
      cases moment with
      | operation o =>
        cases session with
        | cons first rest => exact .operation first (ih rest)
      | reload style => exact .reload (read?_write style m) (ih session)

/-! ## The statement -/

/-- **Snapshots lose nothing, and reloading a machine changes nothing.**  Values of all these types
are read from their text in either style; and whatever is done with a machine, it answers the same
and comes to the same end with and without being reloaded in between. -/
theorem snapshots_lossless :
    (Lossless Machine ∧ Lossless Memory ∧ Lossless Channel ∧ Lossless Status ∧ Lossless Outcome ∧
      Lossless Instruction ∧ Lossless Opcode ∧ Lossless Mode ∧ Lossless Role ∧ Lossless Tile ∧
      Lossless Joystick) ∧
    ∀ (m : Machine) (moments : List Moment) (answers : List Machine.Answer) (m' : Machine),
      Reloading m moments answers m' ↔
        m.Session (moments.filterMap Moment.operation?) answers m' :=
  ⟨⟨lossless, lossless, lossless, lossless, lossless, lossless, lossless, lossless, lossless,
    lossless, lossless⟩, fun _ _ _ _ => reloading_iff_session⟩

end IntcodeMachine.Snapshot
