import IntcodeMachine.Disassembly
import IntcodeMachine.Proofs.Machine.OpcodeTable

/-! # The disassembly shows what is executed

The disassembly decodes a cell by itself: it looks at all modes first, and takes
cells that have no address for zero.  The machine looks at one parameter after the
other and may fail on the way for other reasons.  They agree nevertheless.  What a
step executes is shown at its counter, with one operand for each parameter, in the
mode in which the step has resolved it (`Shows`); and where data is shown, a step
fails and does nothing else.

Both directions rest on `entryAt_of_resolvable`: once every parameter can be
resolved, the machine has looked at everything that the disassembly looks at, and
nothing is left for which it could show data.
-/
namespace IntcodeMachine

namespace Disassembly

/-! ## Text -/

theorem toList_padded (width : Nat) (text : String) :
    (padded width text).toList = text.toList ++ List.replicate (width - text.length) ' ' := by
  simp [padded]

theorem text_instruction (opcode : Opcode) (operands : List Operand) :
    (Entry.instruction opcode operands).text =
      if operands.isEmpty then opcode.mnemonic
      else padded 4 opcode.mnemonic ++ ", ".intercalate (operands.map Operand.text) := by
  cases operands <;> rfl

/-- The text of an instruction starts with its mnemonic. -/
theorem mnemonic_prefix_text (opcode : Opcode) (operands : List Operand) :
    opcode.mnemonic.toList <+: (Entry.instruction opcode operands).text.toList := by
  rw [text_instruction]
  split
  · exact List.prefix_rfl
  · rw [String.toList_append, toList_padded, List.append_assoc]
    exact List.prefix_append _ _

/-- Only data is shown by a text that starts with the word for it. -/
theorem exists_data_of_text {entry : Entry} (h : "DATA".toList <+: entry.text.toList) :
    ∃ raw, entry = .data raw := by
  cases entry with
  | data raw => exact ⟨raw, rfl⟩
  | instruction opcode operands =>
    obtain ⟨rest, h⟩ := h
    obtain ⟨rest', h'⟩ := mnemonic_prefix_text opcode operands
    have first := congrArg List.head? (h'.trans h.symm)
    cases opcode <;> cases first

/-! ## What an operand stands for -/

namespace Operand
variable (o : Operand)

/-- Where an operand points to, given the relative base. -/
def place (base : Cell) : Int :=
  if o.mode = .relative then o.raw.toInt + base.toInt else o.raw.toInt

/-- The value that an operand stands for. -/
def value (m : Machine) : Cell :=
  if o.mode = .immediate then o.raw else m.memory.view (o.place m.base)

end Operand

/-- What is shown at an address that a cell can hold. -/
theorem cellAt_eq_view (m : Memory) {address : Nat} {n : Int} (h : (address : Int) = n)
    (le : n ≤ Cell.greatest) : cellAt m address = m.view n := by
  subst h
  unfold Cell.greatest at le
  rw [cellAt, if_pos (by unfold Memory.addressCount; omega)]
  rfl

end Disassembly

/-- The mode that a legal digit stands for. -/
def Mode.ofLegalDigit (digit : UInt8) : Mode :=
  if digit = 1 then .immediate else if digit = 2 then .relative else .position

namespace Machine
open Disassembly

variable {m : Machine} {i : Instruction} {k : Nat} {role : Role}

/-- A parameter as the disassembly shows it. -/
def shown (m : Machine) (i : Instruction) (k : Nat) : Operand :=
  ⟨.ofLegalDigit (i.modes.get k), m.raw k⟩

/-- **The operands are the parameters of an instruction**: one for each of them, its cell in the
mode in which the machine resolves it. -/
structure Shows (m : Machine) (i : Instruction) (operands : List Operand) : Prop where
  length : operands.length = i.opcode.roles.length
  raw : ∀ (k : Nat) o, operands[k]? = some o → o.raw = m.memory.view (m.counter.toInt + 1 + k)
  mode : ∀ k o, operands[k]? = some o → i.mode k = .ok o.mode
  /-- The step reads the value that the operand stands for. -/
  source : ∀ k o, operands[k]? = some o → i.opcode.roles[k]? = some .source →
    m.source i k = .ok (o.value m)
  /-- The step writes where the operand points to. -/
  target : ∀ k o, operands[k]? = some o → i.opcode.roles[k]? = some .target →
    ∃ t : Cell, t.toInt = o.place m.base ∧ m.target i k = Fault.addressOf t

/-- The operands of an instruction, as the disassembly shows them. -/
def operands (m : Machine) (i : Instruction) : List Operand :=
  (List.range i.opcode.roles.length).map (m.shown i)

theorem mode_of_legal (h : i.opcode.roles[k]? = some role) (legal : role.Admits (i.modes.get k)) :
    i.mode k = .ok (.ofLegalDigit (i.modes.get k)) := by
  rw [mode_eq_ok h]
  cases role with
  | source => rcases legal with hd | hd | hd <;> simp [hd, Mode.ofLegalDigit]
  | target => rcases legal with hd | hd <;> simp [hd, Mode.ofLegalDigit]

theorem place_shown : (m.shown i k).place m.base = m.place i k := by
  by_cases h1 : i.modes.get k = 1
  · simp [shown, Operand.place, place, Mode.ofLegalDigit, h1]
  · by_cases h2 : i.modes.get k = 2 <;>
      simp [shown, Operand.place, place, Mode.ofLegalDigit, h1, h2]

theorem value_shown : (m.shown i k).value m = m.value i k := by
  unfold Operand.value value
  rw [place_shown]
  by_cases h1 : i.modes.get k = 1
  · simp [shown, Mode.ofLegalDigit, h1]
  · by_cases h2 : i.modes.get k = 2 <;> simp [shown, Mode.ofLegalDigit, h1, h2]

theorem getElem?_operands {o : Operand} (h : (m.operands i)[k]? = some o) :
    k < i.opcode.roles.length ∧ o = m.shown i k := by
  rw [operands, List.getElem?_map, Option.map_eq_some_iff] at h
  obtain ⟨j, hj, rfl⟩ := h
  obtain ⟨inside, rfl⟩ := List.getElem?_eq_some_iff.mp hj
  rw [List.length_range] at inside
  exact ⟨inside, by rw [List.getElem_range]⟩

/-- An instruction that can be resolved is shown as it is resolved. -/
theorem shows_operands (nonneg : 0 ≤ m.counter.toInt) (parameters : m.Resolvable i) :
    m.Shows i (m.operands i) where
  length := by simp [operands]
  raw k o h := by
    obtain ⟨-, rfl⟩ := getElem?_operands h
    rfl
  mode k o h := by
    obtain ⟨inside, rfl⟩ := getElem?_operands h
    have role := List.getElem?_eq_getElem inside
    exact mode_of_legal role (parameters k _ role).legal
  source k o h role := by
    obtain ⟨-, rfl⟩ := getElem?_operands h
    exact (source_eq_ok nonneg role).mpr ⟨parameters k _ role, value_shown⟩
  target k o h role := by
    obtain ⟨-, rfl⟩ := getElem?_operands h
    have r := parameters k _ role
    have placed := r.placed (by rcases r.legal with hd | hd <;> rw [hd] <;> decide)
    obtain ⟨t, a, place, address⟩ := exists_address placed.1 placed.2
    refine ⟨t, place.trans place_shown.symm, ?_⟩
    rw [(target_eq_ok nonneg role).mpr ⟨r, t, place, address⟩, Fault.addressOf, address]
    rfl

/-- **An instruction that can be resolved is shown at the counter.** -/
theorem entryAt_of_resolvable (fetched : m.fetch = .ok i) (parameters : m.Resolvable i) :
    entryAt m.memory m.counter.toInt.toNat = .instruction i.opcode (m.operands i) := by
  obtain ⟨nonneg, decodes⟩ := fetch_eq_ok.mp fetched
  have here : cellAt m.memory m.counter.toInt.toNat = m.memory.view m.counter.toInt :=
    cellAt_eq_view _ (Int.toNat_of_nonneg nonneg) (Cell.le_greatest _)
  have operands : operands? m.memory m.counter.toInt.toNat i = some (m.operands i) := by
    refine mapM_eq_some_map fun k hk => ?_
    have role := List.getElem?_eq_getElem (List.mem_range.mp hk)
    have r := parameters k _ role
    -- The parameter has an address, so the cell shown is the one that the machine reads.
    have cell : cellAt m.memory (m.counter.toInt.toNat + 1 + k) = m.raw k :=
      cellAt_eq_view _ (by omega) r.inside
    rw [mode_of_legal role r.legal, cell]
    rfl
  rw [entryAt, here, decodes]
  simp only [operands]

/-! ## The statement -/

/-- **Disassembly and machine agree about every instruction.**  What a step executes is shown at
the counter: its mnemonic, with the parameters as the step has resolved them, and its width, by
which the counter moves unless the instruction halts or jumps.  Where the text is one of data, the
step fails, and it does nothing but fault the machine. -/
theorem shows_executed_instruction (m : Machine) (running : m.status = .running)
    (nonneg : 0 ≤ m.counter.toInt) :
    (∀ i m', m.step = (.ok i, m') →
      ∃ operands, m.Shows i operands ∧
        (entryAt m.memory m.counter.toInt.toNat).text =
          (if operands.isEmpty then i.opcode.mnemonic
            else padded 4 i.opcode.mnemonic ++ ", ".intercalate (operands.map Operand.text)) ∧
        (entryAt m.memory m.counter.toInt.toNat).width = i.width ∧
        (i.opcode ≠ .halt → ¬ m.Jumps i →
          m'.counter.toInt =
            m.counter.toInt + (entryAt m.memory m.counter.toInt.toNat).width)) ∧
      ("DATA".toList <+: (entryAt m.memory m.counter.toInt.toNat).text.toList →
        ∃ fault, m.step = (.error fault, { m with status := .faulted })) := by
  have stepping := m.step_stepping running
  constructor
  · intro i m' step
    rw [step] at stepping
    cases stepping with
    | @executed _ e c fetched resolved lands =>
      obtain ⟨parameters, yields⟩ := (effect_eq_ok nonneg).mp resolved
      rw [entryAt_of_resolvable fetched parameters]
      refine ⟨_, shows_operands nonneg parameters, text_instruction _ _, rfl, ?_⟩
      intro goesOn untaken
      have lands := (lands_iff yields).mp lands
      rw [next, if_neg goesOn, if_neg untaken] at lands
      exact lands
  · intro text
    obtain ⟨raw, data⟩ := exists_data_of_text text
    -- With an effect there would be an instruction to show.
    have unresolved {i : Instruction} {e : Effect} (fetched : m.fetch = .ok i)
        (resolved : m.effect i = .ok e) : False := by
      rw [entryAt_of_resolvable fetched ((effect_eq_ok nonneg).mp resolved).1] at data
      cases data
    generalize m.step = result at stepping
    cases stepping with
    | executed fetched resolved => exact (unresolved fetched resolved).elim
    | stranded fetched resolved => exact (unresolved fetched resolved).elim
    | refused => exact ⟨_, rfl⟩

/-- An addition in three modes is executed as it is shown; a mode digit that means nothing is shown
as data, and fails. -/
theorem shows_addition_and_data :
    (∃ operands, (load [20101, 7, 5, 9, 99] none).Shows ⟨.add, 1, 0, 2⟩ operands ∧
      (entryAt (load [20101, 7, 5, 9, 99] none).memory 0).text = "ADD 7, [5], [rb+9]" ∧
      (entryAt (load [20101, 7, 5, 9, 99] none).memory 0).width = 4) ∧
    (entryAt (load [304, 0] none).memory 0).text = "DATA 304" ∧
      ∃ fault, (load [304, 0] none).step =
        (.error fault, { load [304, 0] none with status := .faulted }) := by
  have text : (entryAt (load [304, 0] none).memory 0).text = "DATA 304" := by rfl
  obtain ⟨executed, -⟩ :=
    shows_executed_instruction (load [20101, 7, 5, 9, 99] none) rfl (by decide)
  obtain ⟨operands, shows, -, width, -⟩ := executed ⟨.add, 1, 0, 2⟩ _ rfl
  obtain ⟨-, data⟩ := shows_executed_instruction (load [304, 0] none) rfl (by decide)
  exact ⟨⟨operands, shows, by rfl, width⟩, text, data (text ▸ by decide)⟩

end Machine
end IntcodeMachine
