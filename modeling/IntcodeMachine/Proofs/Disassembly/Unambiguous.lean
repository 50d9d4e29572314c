import IntcodeMachine.Proofs.Disassembly.Execution
import IntcodeMachine.Proofs.Json.Numbers
import IntcodeMachine.Proofs.Memory.TotalMap
import IntcodeMachine.Proofs.Text.Pieces

/-! # A disassembly is unambiguous

The text of an entry has no fixed places: mnemonics are filled up to a width, there are
three ways of showing an operand, one of them with two signs, and operands are joined.
Nevertheless different entries have different texts (`Entry.text_injective`).  The text
begins with its mnemonic, and no mnemonic begins with another one; no operand has a
comma in it, so the operands are the pieces between commas; and the first two
characters of an operand show its mode (`modeOf`).

An entry has the opcode, and for each parameter the mode and the cell that are found at
its address.  So where the text is the same, the same instruction stands, or the same
data, wherever that is.
-/
namespace IntcodeMachine.Disassembly

/-! ## Operands -/

namespace Operand

/-- The mode in which an operand with this text is shown. -/
def modeOf (text : List Char) : Mode :=
  if text.head? ≠ some '[' then .immediate
  else if text.tail.head? = some 'r' then .relative
  else .position

/-- The sign of an offset, which is never left out. -/
def sign (offset : Int) : Char := if offset < 0 then '-' else '+'

/-- The characters of an operand. -/
def chars (o : Operand) : List Char :=
  match o.mode with
  | .position => '[' :: Decimal.chars o.raw.toInt ++ [']']
  | .immediate => Decimal.chars o.raw.toInt
  | .relative => "[rb".toList ++
      sign o.raw.toInt :: (Decimal.chars o.raw.toInt.natAbs ++ [']'])

theorem toList_text (o : Operand) : o.text.toList = o.chars := by
  obtain ⟨mode, raw⟩ := o
  cases mode with
  | position => simp [text, chars, Cell.text, Decimal.text]
  | immediate => simp [text, chars, Cell.text, Decimal.text]
  | relative =>
    have below : raw < 0 ↔ raw.toInt < 0 := Int64.lt_iff_toInt_lt
    by_cases negative : raw.toInt < 0
    · simp [text, chars, sign, Decimal.text, below, negative]
    · have abs : (raw.toInt.natAbs : Int) = raw.toInt := by omega
      simp [text, chars, sign, Cell.text, Decimal.text, below, negative, abs]

/-- A number begins with a digit or a sign. -/
theorem exists_chars_eq_cons (z : Int) :
    ∃ c rest, Decimal.chars z = c :: rest ∧ c ≠ '[' ∧ c ≠ 'r' := by
  obtain ⟨c, rest, h⟩ := List.exists_cons_of_ne_nil (Json.chars_ne_nil z)
  refine ⟨c, rest, h, ?_, ?_⟩
  · rintro rfl
    exact Json.not_mem_chars (by decide) z (h ▸ List.mem_cons_self)
  · rintro rfl
    exact Json.not_mem_chars (by decide) z (h ▸ List.mem_cons_self)

theorem modeOf_chars (o : Operand) : modeOf o.chars = o.mode := by
  obtain ⟨mode, raw⟩ := o
  obtain ⟨c, rest, h, bracket, letter⟩ := exists_chars_eq_cons raw.toInt
  cases mode with
  | position => simp [modeOf, chars, h, letter]
  | immediate => simp [modeOf, chars, h, bracket]
  | relative => simp [modeOf, chars]

theorem comma_not_mem_chars (o : Operand) : ',' ∉ o.chars := by
  have number : ∀ z, ',' ∉ Decimal.chars z := Json.not_mem_chars (by decide)
  obtain ⟨mode, raw⟩ := o
  cases mode with
  | position => simp [chars, number]
  | immediate => exact number _
  | relative =>
    have other : ',' ≠ sign raw.toInt := by unfold sign; split <;> decide
    simp [chars, number, other]

/-- An offset is decided by its sign and its absolute value. -/
theorem eq_of_sign_eq {z z' : Int} (signs : sign z = sign z')
    (abs : (z.natAbs : Int) = z'.natAbs) : z = z' := by
  have side : z < 0 ↔ z' < 0 := by
    unfold sign at signs
    split at signs <;> split at signs
    · exact iff_of_true ‹_› ‹_›
    · exact absurd signs (by decide)
    · exact absurd signs (by decide)
    · exact iff_of_false ‹_› ‹_›
  omega

/-- **Different operands have different texts.** -/
theorem chars_injective : Function.Injective Operand.chars := by
  rintro ⟨mode, raw⟩ ⟨mode', raw'⟩ same
  obtain rfl : mode = mode' := by
    have modes := congrArg modeOf same
    rwa [modeOf_chars, modeOf_chars] at modes
  have raws : raw.toInt = raw'.toInt := by
    cases mode with
    | position =>
      exact Json.chars_injective (List.cons.inj (List.append_cancel_right same)).2
    | immediate => exact Json.chars_injective same
    | relative =>
      obtain ⟨signs, numbers⟩ := List.cons.inj (List.append_cancel_left same)
      exact eq_of_sign_eq signs (Json.chars_injective (List.append_cancel_right numbers))
  rw [Int64.toInt_inj.mp raws]

end Operand

/-! ## Entries -/

namespace Entry

/-- No mnemonic begins with another one. -/
theorem eq_of_begins_mnemonic {o o' : Opcode} (h : o.mnemonic.toList <+: o'.mnemonic.toList) :
    o = o' := by
  cases o <;> cases o' <;> first | rfl | exact absurd h (by decide)

theorem opcode_eq_of_text_eq {o o' : Opcode} {operands operands' : List Operand}
    (same : (instruction o operands).text = (instruction o' operands').text) : o = o' := by
  have begins := mnemonic_prefix_text o operands
  have begins' := mnemonic_prefix_text o' operands'
  rw [← same] at begins'
  rcases List.prefix_or_prefix_of_prefix begins begins' with h | h
  · exact eq_of_begins_mnemonic h
  · exact (eq_of_begins_mnemonic h).symm

/-- A mnemonic that is filled up can be told from one that stands alone. -/
theorem mnemonic_ne_padded (o : Opcode) (text : String) :
    o.mnemonic ≠ padded 4 o.mnemonic ++ text := by
  intro same
  have short : o.mnemonic.length < 4 := by cases o <;> decide
  have lengths := congrArg String.length same
  simp only [padded, String.length_append, String.length_ofList, List.length_replicate] at lengths
  omega

theorem operands_eq_of_text_eq {o : Opcode} {operands operands' : List Operand}
    (same : (instruction o operands).text = (instruction o operands').text) :
    operands = operands' := by
  match operands, operands' with
  | [], [] => rfl
  | [], _ :: _ => exact absurd same (mnemonic_ne_padded o _)
  | _ :: _, [] => exact absurd same.symm (mnemonic_ne_padded o _)
  | first :: more, first' :: more' =>
    have chars : ∀ operands : List Operand,
        (", ".intercalate (operands.map Operand.text)).toList =
          [',', ' '].intercalate (operands.map Operand.chars) := by
      intro operands
      simp [String.toList_intercalate, Function.comp_def, Operand.toList_text]
    have joined := congrArg String.toList same
    simp only [text, String.toList_append, chars, List.append_cancel_left_eq] at joined
    have inner : ∀ operands : List Operand, ∀ text ∈ operands.map Operand.chars, ',' ∉ text :=
      fun _ => List.forall_mem_map.mpr fun o _ => o.comma_not_mem_chars
    have texts := Text.intercalate_inj (by decide) (inner (first :: more)) (inner (first' :: more'))
      joined
    exact (List.map_inj_right fun _ _ h => Operand.chars_injective h).mp texts

/-- **Different entries have different texts.** -/
theorem text_injective : Function.Injective Entry.text := by
  have word : ∀ raw, "DATA".toList <+: (data raw).text.toList := by
    intro raw
    have first : "DATA".toList <+: "DATA ".toList := by decide
    rw [text, String.toList_append]
    exact first.trans (List.prefix_append _ _)
  rintro (raw | ⟨o, operands⟩) (raw' | ⟨o', operands'⟩) same
  · have chars := congrArg String.toList same
    simp only [text, String.toList_append, Cell.text, Decimal.text, String.toList_ofList,
      List.append_cancel_left_eq] at chars
    rw [Int64.toInt_inj.mp (Json.chars_injective chars)]
  · obtain ⟨_, data⟩ := exists_data_of_text (same ▸ word raw)
    cases data
  · obtain ⟨_, data⟩ := exists_data_of_text (same.symm ▸ word raw')
    cases data
  · obtain rfl := opcode_eq_of_text_eq same
    rw [operands_eq_of_text_eq same]

end Entry

/-! ## What stands at an address -/

variable {m m' : Memory} {address address' : Nat} {i : Instruction} {operands : List Operand}

theorem toInt64_negative_iff (address : UInt64) :
    address.toInt64 < 0 ↔ Memory.addressCount ≤ address.toNat := by
  have value : address.toInt64.toInt = address.toBitVec.toInt := rfl
  have zero : (0 : Int64).toInt = 0 := rfl
  have bound := address.toNat_lt
  rw [Int64.lt_iff_toInt_lt, value, zero, BitVec.toInt_eq_toNat_cond, UInt64.toNat_toBitVec]
  unfold Memory.addressCount
  split <;> omega

/-- **What is shown of an address is what is read there**, taken for a signed one, or else zero. -/
theorem cellAt_eq_read (m : Memory) (address : UInt64) :
    cellAt m address.toNat = (m.read address.toInt64).toOption.getD 0 := by
  have negative := toInt64_negative_iff address
  by_cases beyond : Memory.addressCount ≤ address.toNat
  · rw [cellAt, if_neg (Nat.not_lt.mpr beyond), Memory.read_negative (negative.mpr beyond)]
    rfl
  · rw [cellAt, if_pos (Nat.lt_of_not_le beyond), UInt64.ofNat_toNat,
      Memory.read_nonneg (Int64.not_lt.mp (mt negative.mp beyond)), UInt64.toUInt64_toInt64]
    rfl

theorem cellAt_of_le (le : Memory.addressCount ≤ address) : cellAt m address = 0 :=
  if_neg (Nat.not_lt.mpr le)

/-- There is a cell at the address of an instruction. -/
theorem lt_of_decode (decodes : Instruction.decode (cellAt m address) = .ok i) :
    address < Memory.addressCount := by
  refine Nat.lt_of_not_le fun le => ?_
  rw [cellAt_of_le le] at decodes
  cases decodes

theorem length_roles_le (o : Opcode) : o.roles.length ≤ 3 := by cases o <;> decide

/-- The operands show the parameters, each in its mode. -/
theorem getElem?_of_operands (found : operands? m address i = some operands) {k : Nat}
    (hk : k < i.opcode.roles.length) :
    ∃ mode, i.mode k = .ok mode ∧ operands[k]? = some ⟨mode, cellAt m (address + 1 + k)⟩ := by
  have shown := congrArg (fun found => found[k]?) (mapM_eq_some_iff.mp found)
  simp only [List.getElem?_map, List.getElem?_range hk, Option.map_some] at shown
  obtain ⟨o, ho, shown⟩ := Option.map_eq_some_iff.mp shown.symm
  cases mode : i.mode k with
  | error e => simp [mode] at shown
  | ok mode' =>
    simp only [mode, Option.some.injEq] at shown
    exact ⟨mode', rfl, shown ▸ ho⟩

/-- An entry is data with the cell at its address, or the instruction that this cell is. -/
theorem entryAt_cases (m : Memory) (address : Nat) :
    entryAt m address = .data (cellAt m address) ∨
    ∃ i operands, Instruction.decode (cellAt m address) = .ok i ∧
      operands? m address i = some operands ∧
      entryAt m address = .instruction i.opcode operands := by
  cases decodes : Instruction.decode (cellAt m address) with
  | error e => exact .inl (by simp only [entryAt, decodes])
  | ok i =>
    cases found : operands? m address i with
    | none => exact .inl (by simp only [entryAt, decodes, found])
    | some operands => exact .inr ⟨i, operands, rfl, found, by simp only [entryAt, decodes, found]⟩

/-- **The same stands at two addresses.** -/
inductive StandsAlike (m : Memory) (address : Nat) (m' : Memory) (address' : Nat) : Prop
  /-- Both show data, which is the same cell. -/
  | data (here : entryAt m address = .data (cellAt m address))
      (there : entryAt m' address' = .data (cellAt m' address'))
      (cell : cellAt m address = cellAt m' address')
  /-- Both cells are instructions with the same opcode, and each parameter has the same mode and
  the same cell. -/
  | instruction {i i' : Instruction} (here : Instruction.decode (cellAt m address) = .ok i)
      (there : Instruction.decode (cellAt m' address') = .ok i') (opcode : i.opcode = i'.opcode)
      (parameters : ∀ k < i.opcode.roles.length, ∃ mode, i.mode k = .ok mode ∧
        i'.mode k = .ok mode ∧ cellAt m (address + 1 + k) = cellAt m' (address' + 1 + k))

theorem standsAlike_of_entryAt_eq (same : entryAt m address = entryAt m' address') :
    StandsAlike m address m' address' := by
  rcases entryAt_cases m address with here | ⟨i, operands, decodes, found, here⟩ <;>
    rcases entryAt_cases m' address' with there | ⟨i', operands', decodes', found', there⟩
  · exact .data here there (Entry.data.inj (here.symm.trans (same.trans there)))
  · cases here.symm.trans (same.trans there)
  · cases here.symm.trans (same.trans there)
  · obtain ⟨opcode, rfl⟩ := Entry.instruction.inj (here.symm.trans (same.trans there))
    refine .instruction decodes decodes' opcode fun k hk => ?_
    obtain ⟨mode, legal, shown⟩ := getElem?_of_operands found hk
    obtain ⟨mode', legal', shown'⟩ := getElem?_of_operands found' (opcode ▸ hk)
    obtain ⟨rfl, cell⟩ := Operand.mk.inj (Option.some.inj (shown.symm.trans shown'))
    exact ⟨mode, legal, legal', cell⟩

/-! ## The statement -/

/-- **The text at an address tells what stands there.**  If it is the same at two addresses, of
whatever memories, then the same stands at both, and it takes the same number of cells.  The
addresses of an instruction's parameters are 64-bit numbers; what has no cell is shown as zero, and
so an address that is beyond those of cells always shows data. -/
theorem text_unambiguous (m m' : Memory) (address address' : Nat) :
    ((entryAt m address).text = (entryAt m' address').text →
      StandsAlike m address m' address' ∧
        (entryAt m address).width = (entryAt m' address').width) ∧
    (∀ i, Instruction.decode (cellAt m address) = .ok i →
      ∀ k < i.opcode.roles.length, address + 1 + k < UInt64.size) ∧
    (∀ n : UInt64, cellAt m n.toNat = (m.read n.toInt64).toOption.getD 0) ∧
    (Memory.addressCount ≤ address →
      (entryAt m address).text = "DATA 0" ∧ (entryAt m address).width = 1) := by
  refine ⟨fun same => ?_, fun i decodes k hk => ?_, cellAt_eq_read m, fun beyond => ?_⟩
  · have entries := Entry.text_injective same
    exact ⟨standsAlike_of_entryAt_eq entries, congrArg Entry.width entries⟩
  · have small := lt_of_decode decodes
    have few := length_roles_le i.opcode
    unfold Memory.addressCount at small
    unfold UInt64.size
    omega
  · have data : entryAt m address = .data 0 := by
      rw [entryAt, cellAt_of_le beyond]
      rfl
    rw [data]
    exact ⟨rfl, rfl⟩

/-- The least offset has an absolute value that no cell has, and is shown nevertheless.  A digit
that stands for no parameter is not shown. -/
theorem least_offset_unambiguous :
    (entryAt (.ofImage [204, -9223372036854775808]) 0).text = "OUT [rb-9223372036854775808]" ∧
    StandsAlike (.ofImage [204, -9223372036854775808]) 0
      (.ofImage [0, 10204, -9223372036854775808]) 1 ∧
    0 + 1 + 0 < UInt64.size ∧
    (entryAt (.ofImage [204, -9223372036854775808]) 9223372036854775808).text = "DATA 0" := by
  have text : (entryAt (.ofImage [204, -9223372036854775808]) 0).text =
      "OUT [rb-9223372036854775808]" := by rfl
  have text' : (entryAt (.ofImage [0, 10204, -9223372036854775808]) 1).text =
      "OUT [rb-9223372036854775808]" := by rfl
  obtain ⟨alike, parameters, -, -⟩ := text_unambiguous (.ofImage [204, -9223372036854775808])
    (.ofImage [0, 10204, -9223372036854775808]) 0 1
  obtain ⟨-, -, -, beyond⟩ := text_unambiguous (.ofImage [204, -9223372036854775808])
    .empty 9223372036854775808 0
  exact ⟨text, (alike (text.trans text'.symm)).1, parameters ⟨.output, 2, 0, 0⟩ rfl 0 (by decide),
    (beyond (by decide)).1⟩

end IntcodeMachine.Disassembly
