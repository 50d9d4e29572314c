import IntcodeMachine.Instruction.Decode

/-! # Decoding is positional arithmetic

An instruction is a number of five decimal digits: two for its opcode, and above them
one for each mode (`number`).  A cell is an instruction if its remainder modulo 100000
is such a number, and then it is that instruction (`decode_eq_ok`).  The remainder is
never negative, so the digits of a negative cell are not those of its decimal text:
-99999 leaves the remainder 1 and is an addition.

Opcode and modes are taken from the cell itself, each by a division of its own.  That
all of them are digits of one remainder is `emod_eq_digits`, where it matters that
quotients of negative cells are rounded down.
-/
namespace IntcodeMachine.Instruction

variable {cell cell' : Cell} {i i' : Instruction} {e : DecodeError}

/-- The number that an instruction stands for, with its digits at their places. -/
def number (i : Instruction) : Nat :=
  i.opcode.code + 100 * (i.modes.get 0).toNat + 1000 * (i.modes.get 1).toNat +
    10000 * (i.modes.get 2).toNat

/-- Every mode is a decimal digit. -/
def IsDecimal (i : Instruction) : Prop := ∀ k, (i.modes.get k).toNat ≤ 9

/-! ## Digits -/

theorem toNat_digitAt (n unit : Int) : ((digitAt n unit).toNat : Int) = n / unit % 10 := by
  unfold digitAt
  rw [Nat.toUInt8, UInt8.toNat_ofNat']
  omega

theorem toNat_digitAt_le (n unit : Int) : (digitAt n unit).toNat ≤ 9 := by
  have := toNat_digitAt n unit
  omega

/-- A remainder is made of the digits of the number. -/
theorem emod_eq_digits (n : Int) :
    n % 100000 = n % 100 + 100 * (digitAt n 100).toNat + 1000 * (digitAt n 1000).toNat +
      10000 * (digitAt n 10000).toNat := by
  rw [toNat_digitAt, toNat_digitAt, toNat_digitAt]
  omega

theorem code_lt (o : Opcode) : o.code < 100 := by cases o <;> decide

/-- **Different instructions are different numbers**, as long as their modes are digits. -/
theorem eq_of_number_eq (decimal : i.IsDecimal) (decimal' : i'.IsDecimal)
    (same : i.number = i'.number) : i = i' := by
  obtain ⟨opcode, first, second, third⟩ := i
  obtain ⟨opcode', first', second', third'⟩ := i'
  have digits : first.toNat ≤ 9 ∧ second.toNat ≤ 9 ∧ third.toNat ≤ 9 :=
    ⟨decimal 0, decimal 1, decimal 2⟩
  have digits' : first'.toNat ≤ 9 ∧ second'.toNat ≤ 9 ∧ third'.toNat ≤ 9 :=
    ⟨decimal' 0, decimal' 1, decimal' 2⟩
  have small := code_lt opcode
  have small' := code_lt opcode'
  simp only [number, ModeDigits.get] at same
  obtain rfl : opcode = opcode' := Opcode.code_injective (by omega)
  obtain rfl : first = first' := UInt8.toNat_inj.mp (by omega)
  obtain rfl : second = second' := UInt8.toNat_inj.mp (by omega)
  obtain rfl : third = third' := UInt8.toNat_inj.mp (by omega)
  rfl

/-! ## Cells -/

/-- An opcode with the digits of a number for its modes. -/
def withDigits (o : Opcode) (n : Int) : Instruction :=
  ⟨o, digitAt n 100, digitAt n 1000, digitAt n 10000⟩

theorem isDecimal_withDigits (o : Opcode) (n : Int) : (withDigits o n).IsDecimal := by
  intro k
  match k with
  | 0 | 1 | _ + 2 => exact toNat_digitAt_le ..

theorem number_withDigits {o : Opcode} {n : Int} (code : (o.code : Int) = n % 100) :
    ((withDigits o n).number : Int) = n % 100000 := by
  rw [emod_eq_digits, ← code]
  simp only [number, withDigits, ModeDigits.get]
  omega

/-- A cell has the code of an opcode in its two lowest digits, or it is no instruction. -/
theorem decode_cases (cell : Cell) :
    (∃ o : Opcode, (o.code : Int) = cell.toInt % 100 ∧
      decode cell = .ok (withDigits o cell.toInt)) ∨
    (¬ ∃ o : Opcode, (o.code : Int) = cell.toInt % 100) ∧
      decode cell = .error (.unknownOpcode (cell.toInt % 100)) := by
  cases found : Opcode.ofCode? (cell.toInt % 100) with
  | some o =>
    refine .inl ⟨o, Opcode.ofCode?_eq_some.mp found, ?_⟩
    simp only [decode, found, withDigits]
  | none =>
    refine .inr ⟨?_, ?_⟩
    · rintro ⟨o, code⟩
      rw [Opcode.ofCode?_eq_some.mpr code] at found
      cases found
    · simp only [decode, found]

/-- **A cell is an instruction exactly if an opcode has the code in its lowest digits.** -/
theorem exists_decode_iff :
    (∃ i, decode cell = .ok i) ↔ ∃ o : Opcode, (o.code : Int) = cell.toInt % 100 := by
  rcases decode_cases cell with ⟨o, code, decodes⟩ | ⟨unknown, fails⟩
  · exact iff_of_true ⟨_, decodes⟩ ⟨o, code⟩
  · refine iff_of_false ?_ unknown
    rintro ⟨i, decodes⟩
    rw [fails] at decodes
    cases decodes

/-- **A cell is the instruction whose number is its remainder.** -/
theorem decode_eq_ok :
    decode cell = .ok i ↔ i.IsDecimal ∧ (i.number : Int) = cell.toInt % 100000 := by
  constructor
  · intro decodes
    obtain ⟨o, code, decodes'⟩ | ⟨-, fails⟩ := decode_cases cell
    · obtain rfl := Except.ok.inj (decodes.symm.trans decodes')
      exact ⟨isDecimal_withDigits o _, number_withDigits code⟩
    · rw [fails] at decodes
      cases decodes
  · rintro ⟨decimal, number⟩
    have code : (i.opcode.code : Int) = cell.toInt % 100 := by
      have := code_lt i.opcode
      unfold Instruction.number at number
      omega
    obtain ⟨o, code', decodes⟩ | ⟨unknown, -⟩ := decode_cases cell
    · have number' := number_withDigits code'
      rw [decodes, eq_of_number_eq (isDecimal_withDigits o _) decimal (by omega)]
    · exact absurd ⟨_, code⟩ unknown

/-- **The error of a cell that is no instruction names its lowest digits.** -/
theorem decode_eq_error :
    decode cell = .error e ↔
      (¬ ∃ o : Opcode, (o.code : Int) = cell.toInt % 100) ∧
        e = .unknownOpcode (cell.toInt % 100) := by
  rcases decode_cases cell with ⟨o, code, decodes⟩ | ⟨unknown, fails⟩
  · rw [decodes]
    refine iff_of_false (fun h => by cases h) fun h => h.1 ⟨o, code⟩
  · rw [fails, Except.error.injEq, eq_comm]
    exact ⟨fun h => ⟨unknown, h⟩, And.right⟩

/-- **Only the remainder of a cell matters.** -/
theorem decode_congr (same : cell.toInt % 100000 = cell'.toInt % 100000) :
    decode cell = decode cell' := by
  cases decodes : decode cell with
  | ok i =>
    rw [decode_eq_ok, same] at decodes
    exact (decode_eq_ok.mpr decodes).symm
  | error e =>
    have low : cell.toInt % 100 = cell'.toInt % 100 := by omega
    rw [decode_eq_error, low] at decodes
    exact (decode_eq_error.mpr decodes).symm

/-! ## The statement -/

/-- **Decoding is positional arithmetic on the remainder modulo 100000**, for negative cells too.
A cell is an instruction exactly if the two lowest digits of the remainder are the code of an
opcode.  Then code and modes, which are digits, are those of the remainder, each at its place;
otherwise the error names the two lowest digits.  Cells with the same remainder are therefore
decoded in the same way, and cells that are the same instruction have the same remainder. -/
theorem decodes_remainder (cell : Cell) :
    (∀ i, decode cell = .ok i ↔ i.IsDecimal ∧ (i.number : Int) = cell.toInt % 100000) ∧
    ((∃ i, decode cell = .ok i) ↔
      ∃ o : Opcode, (o.code : Int) = cell.toInt % 100000 % 100) ∧
    (∀ e, decode cell = .error e ↔
      (¬ ∃ o : Opcode, (o.code : Int) = cell.toInt % 100000 % 100) ∧
        e = .unknownOpcode (cell.toInt % 100000 % 100)) ∧
    (∀ cell', cell'.toInt % 100000 = cell.toInt % 100000 → decode cell' = decode cell) ∧
    ∀ cell' i, decode cell = .ok i → decode cell' = .ok i →
      cell'.toInt % 100000 = cell.toInt % 100000 := by
  have low : cell.toInt % 100000 % 100 = cell.toInt % 100 := by omega
  rw [low]
  refine ⟨fun _ => decode_eq_ok, exists_decode_iff, fun _ => decode_eq_error,
    fun _ => decode_congr, ?_⟩
  intro cell' i decodes decodes'
  rw [← (decode_eq_ok.mp decodes).2, ← (decode_eq_ok.mp decodes').2]

/-- The digits of -78897 are those of 21103, and not those of its text. -/
theorem negative_cell_decodes_remainder :
    decode (-78897) = .ok ⟨.input, 1, 1, 2⟩ ∧
      (-78897 : Cell).toInt % 100000 = (21103 : Cell).toInt % 100000 := by
  obtain ⟨-, -, -, same, back⟩ := decodes_remainder 21103
  have decodes : decode 21103 = .ok ⟨.input, 1, 1, 2⟩ := rfl
  have decodes' := (same (-78897) (by decide)).trans decodes
  exact ⟨decodes', back _ _ decodes decodes'⟩

end IntcodeMachine.Instruction
