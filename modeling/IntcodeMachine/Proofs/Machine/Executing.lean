import IntcodeMachine.Proofs.Machine.Failing
import IntcodeMachine.Proofs.Machine.InputRegister

/-! # Executed instructions

A run, told by the instructions that the machine has executed, one after the other
(`Executes`), with the machine before and after each of them (`Executed`).  What an
executed instruction has done is read off the opcode table: it has stored what the
input register holds, added an output, or neither.

A step leaves the input register as it is, whatever its result (`input_step`), and
only an input instruction that finds it empty fails for want of input
(`supplied_step`).
-/
namespace IntcodeMachine

/-- An instruction that has been executed, with the machine before and after it. -/
structure Executed where
  before : Machine
  instruction : Instruction
  after : Machine

namespace Executed

/-- The instruction asks for input. -/
def isInput (e : Executed) : Bool := e.instruction.opcode == .input

theorem isInput_iff {e : Executed} : e.isInput = true ↔ e.instruction.opcode = .input :=
  beq_iff_eq

/-- The number of input instructions goes up with every one of them. -/
theorem count_take_cons (e : Executed) (log : List Executed) (given k : Nat) :
    given + ((e :: log).take (k + 1)).countP isInput =
      (if e.instruction.opcode = .input then given + 1 else given) +
        (log.take k).countP isInput := by
  rw [List.take_succ_cons, List.countP_cons]
  by_cases asks : e.instruction.opcode = .input
  · rw [if_pos (isInput_iff.mpr asks), if_pos asks]
    omega
  · rw [if_neg (mt isInput_iff.mp asks), if_neg asks]
    omega

/-- The outputs that the instruction has added. -/
def emitted (e : Executed) : List Cell := e.after.outputs.toList.drop e.before.outputs.size

/-- The value stands where the first parameter of the instruction points to. -/
def Stores (e : Executed) (value : Cell) : Prop :=
  ∃ c : Cell, c.toInt = e.before.place e.instruction 0 ∧ e.after.memory.read c = .ok value

end Executed

namespace Machine

/-- **The machine executes these instructions one after the other.** Between two of them nothing
but the input register may change. -/
inductive Executes : Machine → List Executed → Machine → Prop
  | nil (m : Machine) : Executes m [] m
  | cons {m m' n last : Machine} {i : Instruction} {log : List Executed}
      (step : m.step = (.ok i, m')) (refilled : m'.SameButInput n) (rest : Executes n log last) :
      Executes m (⟨m, i, m'⟩ :: log) last

variable {m m' n last : Machine} {i : Instruction} {log : List Executed}

theorem SameButInput.eq_of_input (same : m.SameButInput n)
    (input : m.channel.input = n.channel.input) : m = n := by
  obtain ⟨memory, ⟨register, outputs⟩, counter, base, status, steps, last⟩ := m
  obtain ⟨memory', ⟨register', outputs'⟩, counter', base', status', steps', last'⟩ := n
  obtain ⟨rfl, rfl, rfl, rfl, rfl, rfl, rfl⟩ := same
  obtain rfl : register = register' := input
  rfl

theorem performs_of_step_ok (step : m.step = (.ok i, m')) : m.Ready i ∧ m.Performs i m' := by
  have running := running_of_step_ok step
  have stepping := m.step_stepping running
  rw [step] at stepping
  cases stepping with
  | executed fetched resolved lands =>
    exact ⟨ready_iff.mpr ⟨_, _, fetched, resolved, lands⟩,
      performs_of_lands running fetched resolved lands⟩

theorem not_faulted_of_step_ok (step : m.step = (.ok i, m')) : m'.status ≠ .faulted := by
  rw [(performs_of_step_ok step).2.status]
  split <;> exact Status.noConfusion

/-- An input instruction that has been executed has stored the value in the register. -/
theorem stores_of_step_ok (step : m.step = (.ok i, m')) (asks : i.opcode = .input) :
    ∃ value, m.channel.input = some value ∧ Executed.Stores ⟨m, i, m'⟩ value := by
  obtain ⟨ready, performs⟩ := performs_of_step_ok step
  obtain ⟨value, register⟩ := Option.ne_none_iff_exists'.mp (ready.input asks)
  have resolves := ready.parameters 0 .target (by rw [asks]; rfl)
  have placed := resolves.placed (by rcases resolves.legal with h | h <;> rw [h] <;> decide)
  obtain ⟨c, -, place, -⟩ := exists_address placed.1 placed.2
  have written := performs.written 0 value.toInt (by rw [asks]; rfl)
    ((stored_input asks).mpr register) c place
  refine ⟨value, register, c, place, ?_⟩
  cases read : m'.memory.read c with
  | error e =>
    rw [read] at written
    cases written
  | ok found =>
    rw [read] at written
    rw [Int64.toInt_inj.mp (Except.ok.inj written)]

theorem outputs_of_output (step : m.step = (.ok i, m')) (puts : i.opcode = .output) :
    m'.outputs.toList = m.outputs.toList ++ [m.value i 0] := by
  rw [(performs_of_step_ok step).2.outputs, if_pos puts]

theorem outputs_of_other (step : m.step = (.ok i, m')) (puts : i.opcode ≠ .output) :
    m'.outputs.toList = m.outputs.toList := by
  rw [(performs_of_step_ok step).2.outputs, if_neg puts, List.append_nil]

theorem outputs_eq_append_emitted (step : m.step = (.ok i, m')) :
    m'.outputs.toList = m.outputs.toList ++ Executed.emitted ⟨m, i, m'⟩ := by
  rw [Executed.emitted, (performs_of_step_ok step).2.outputs]
  exact congrArg _ List.drop_left.symm

namespace Executes

/-- The outputs of the machine are those that the instructions have added. -/
theorem outputs (executes : m.Executes log last) :
    last.outputs.toList = m.outputs.toList ++ log.flatMap Executed.emitted := by
  induction executes with
  | nil m => exact (List.append_nil _).symm
  | cons step refilled _ ih =>
    rw [ih, ← refilled.outputs, outputs_eq_append_emitted step, List.append_assoc,
      List.flatMap_cons]

/-- The machine itself is the first one that is reached. -/
theorem reaches_first (executes : m.Executes log last) :
    (log.map Executed.before ++ [last])[0]? = some m := by
  cases executes <;> rfl

theorem step_of_mem (executes : m.Executes log last) {e : Executed} (mem : e ∈ log) :
    e.before.step = (.ok e.instruction, e.after) := by
  induction executes with
  | nil m => cases mem
  | cons step _ _ ih =>
    rcases List.mem_cons.mp mem with rfl | mem
    · exact step
    · exact ih mem

end Executes

/-- A step of an input instruction that succeeds is one that executes an input instruction. -/
theorem input_of_readsInput (step : m.step = (.ok i, m')) (reads : m.ReadsInput) :
    i.opcode = .input := by
  obtain ⟨-, -, fetched, -⟩ := ready_iff.mp (performs_of_step_ok step).1
  exact Decidable.not_not.mp fun other => not_readsInput fetched other reads

/-! ## A register that is filled -/

/-- A step leaves the input register to those outside. -/
@[simp] theorem input_step (m : Machine) : m.step.2.channel.input = m.channel.input := by
  cases step : m.step with
  | mk result m' =>
    cases result with
    | ok i => exact (performs_of_step_ok step).2.input
    | error fault => exact (fails_of_step_error step).input

/-- Whatever fails here, it is not for want of input. -/
def Supplied {α : Type} (x : Except Fault α) : Prop := ∀ counter, x ≠ .error (.missingInput counter)

section Supplied
variable {α β : Type} {x : Except Fault α}

theorem supplied_ok (a : α) : Supplied (.ok a) := fun _ h => by cases h

theorem Supplied.bind {f : α → Except Fault β} (first : Supplied x) (rest : ∀ a, Supplied (f a)) :
    Supplied (x >>= f) := by
  intro counter h
  cases x with
  | error fault =>
    obtain rfl : fault = .missingInput counter := Except.error.inj h
    exact first counter rfl
  | ok a => exact rest a counter h

theorem supplied_mapError {ε : Type} {f : ε → Fault} (x : Except ε α)
    (other : ∀ e counter, f e ≠ .missingInput counter) : Supplied (x.mapError f) := by
  intro counter h
  cases x with
  | error e => exact other e counter (Except.error.inj h)
  | ok a => cases h

theorem supplied_orOverflow (value : Option Cell) : Supplied (Fault.orOverflow value) := by
  intro counter h
  cases value <;> cases h

theorem supplied_addressOf (c : Cell) : Supplied (Fault.addressOf c) :=
  supplied_mapError _ fun _ _ => Fault.noConfusion

theorem supplied_decode (x : Except DecodeError α) : Supplied (x.mapError .decode) :=
  supplied_mapError _ fun _ _ => Fault.noConfusion

end Supplied

section
variable (m : Machine) (i : Instruction) (index : Nat)

theorem supplied_fetch : Supplied m.fetch :=
  (supplied_addressOf _).bind fun _ => supplied_decode _

theorem supplied_parameter : Supplied (m.parameter index) :=
  (supplied_orOverflow _).bind fun _ => (supplied_addressOf _).bind fun _ => supplied_ok _

theorem supplied_lookUp (c : Cell) : Supplied (m.lookUp c) :=
  supplied_mapError _ fun _ _ => Fault.noConfusion

theorem supplied_source : Supplied (m.source i index) := by
  rw [source_eq]
  refine (m.supplied_parameter index).bind fun raw => (supplied_decode _).bind fun mode => ?_
  cases mode with
  | position => exact m.supplied_lookUp raw
  | immediate => exact supplied_ok raw
  | relative => exact (supplied_orOverflow _).bind fun c => m.supplied_lookUp c

theorem supplied_target : Supplied (m.target i index) := by
  unfold target
  refine (m.supplied_parameter index).bind fun raw => (supplied_decode _).bind fun mode => ?_
  cases mode with
  | position => exact supplied_addressOf raw
  | immediate => exact fun _ h => by cases h
  | relative => exact (supplied_orOverflow _).bind fun c => supplied_addressOf c

theorem supplied_combine (operation : Cell → Cell → Option Cell) :
    Supplied (m.combine i operation) :=
  (m.supplied_source i 0).bind fun _ => (m.supplied_source i 1).bind fun _ =>
    (supplied_orOverflow _).bind fun _ => (m.supplied_target i 2).bind fun _ => supplied_ok _

theorem supplied_branch (test : Cell → Bool) : Supplied (m.branch i test) := by
  refine (m.supplied_source i 0).bind fun _ => (m.supplied_source i 1).bind fun _ => ?_
  dsimp only
  split
  · exact supplied_ok _
  · exact (supplied_orOverflow _).bind fun _ => supplied_ok _

end

/-- An instruction lacks input only if it asks for it and the register is empty. -/
theorem supplied_effect (filled : m.channel.input ≠ none) : Supplied (m.effect i) := by
  cases o : i.opcode with
  | add | multiply | lessThan | equals =>
    rw [effect, o]
    exact m.supplied_combine i _
  | jumpIfTrue | jumpIfFalse =>
    rw [effect, o]
    exact m.supplied_branch i _
  | input =>
    obtain ⟨value, register⟩ := Option.ne_none_iff_exists'.mp filled
    simp only [effect, o, register]
    exact (m.supplied_target i 0).bind fun _ => supplied_ok _
  | output =>
    rw [effect, o]
    exact (m.supplied_source i 0).bind fun _ => supplied_ok _
  | adjustBase =>
    rw [effect, o]
    exact (m.supplied_source i 0).bind fun _ => (supplied_orOverflow _).bind fun _ => supplied_ok _
  | halt =>
    rw [effect, o]
    exact supplied_ok _

/-- **A machine whose register is filled never lacks input.** -/
theorem supplied_step (filled : m.channel.input ≠ none) : Supplied m.step.1 := by
  intro counter missing
  by_cases running : m.status = .running
  · have stepping := m.step_stepping running
    generalize m.step = result at stepping missing
    cases stepping with
    | executed => cases missing
    | refused failed =>
      rw [Except.error.inj missing] at failed
      exact (m.supplied_fetch.bind fun _ => supplied_effect filled) counter failed
    | stranded _ _ _ stuck =>
      rw [Except.error.inj missing] at stuck
      exact supplied_orOverflow _ counter stuck
  · rw [m.step_of_not_running running] at missing
    cases missing

end Machine
end IntcodeMachine
