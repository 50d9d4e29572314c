import IntcodeMachine.Proofs.Machine.OpcodeTable
import IntcodeMachine.Proofs.Machine.Operations

/-! # What a failed step leaves

A step that fails faults the machine, and nearly always it does nothing else.  The
exception is the end of memory: an instruction whose cells reach up to the last
address has its effect before the machine finds that there is no next instruction
(`AtEnd`).  An output is then appended, a cell written or the base adjusted by an
instruction that is reported as failed (`failed_step_emits`).

`fails_of_step_error` says what is left of a machine in either case, and
`stepsToOutput_error` what follows for a run to the next output, by induction on
the number of steps.  That there is no other exception is a matter of counting:
the parameters of a resolved instruction have addresses, so the first address
after it is at most one too many (`reaches_end_of_stuck`).
-/
namespace IntcodeMachine
namespace Machine

/-- The machine after a failure that does nothing else. A machine that does not run keeps its
status. -/
def stopped (m : Machine) : Machine :=
  { m with status := if m.status = .running then .faulted else m.status }

/-- **The instruction at the counter takes the last cell of memory**, and the machine would have to
move past it. -/
def AtEnd (m : Machine) : Prop :=
  ∃ i, m.fetch = .ok i ∧ i.opcode.managesCounter = false ∧
    m.counter.toInt + i.width = Memory.addressCount

/-- The failure of an instruction at the end of memory, whose effect has happened. -/
def Strands (m : Machine) (fault : Fault) (m' : Machine) : Prop :=
  m.AtEnd ∧ fault = .overflow ∧
    ∃ i e, m.fetch = .ok i ∧ m.effect i = .ok e ∧ m' = { m.apply e with status := .faulted }

/-- **What a failed step leaves of the machine.** -/
structure Fails (m : Machine) (fault : Fault) (m' : Machine) : Prop where
  input : m'.channel.input = m.channel.input
  counter : m'.counter = m.counter
  steps : m'.steps = m.steps
  last : m'.last = m.last
  /-- A running machine is faulted, any other keeps its status. -/
  status : m'.status = if m.status = .running then .faulted else m.status
  /-- Everything else is left as it was, too, unless the instruction is at the end of memory. -/
  spares : m' = m.stopped ∨ m.Strands fault m'

variable {m m' : Machine} {i : Instruction} {e : Effect} {fault : Fault}

/-! ## Steps -/

/-- An instruction that can be resolved but not left takes the last cell of memory. -/
theorem reaches_end_of_stuck (fetched : m.fetch = .ok i) (resolved : m.effect i = .ok e)
    (stays : i.opcode.managesCounter = false) (stuck : m.following i = .error fault) :
    m.counter.toInt + i.width = Memory.addressCount := by
  have nonneg := (fetch_eq_ok.mp fetched).1
  have parameters := ((effect_eq_ok nonneg).mp resolved).1
  have beyond : Cell.greatest < m.counter.toInt + i.width := by
    refine Int.not_le.mp fun h => ?_
    have lower : Cell.least ≤ m.counter.toInt + i.width := by
      unfold Cell.least
      omega
    obtain ⟨c, hc⟩ := Cell.fits_iff.mp ⟨lower, h⟩
    rw [following_eq_ok.mpr hc] at stuck
    cases stuck
  have inside : m.counter.toInt + i.opcode.roles.length ≤ Cell.greatest := by
    -- The last parameter has an address; only an opcode that moves the counter itself has none.
    obtain ⟨k, role, hk, last⟩ : ∃ k role,
        i.opcode.roles.length = k + 1 ∧ i.opcode.roles[k]? = some role := by
      cases o : i.opcode with
      | jumpIfTrue | jumpIfFalse | halt =>
        rw [o] at stays
        cases stays
      | _ => exact ⟨_, _, rfl, rfl⟩
    have := (parameters k role last).inside
    omega
  unfold Instruction.width Cell.greatest at *
  unfold Memory.addressCount
  omega

/-- **A failed step leaves the machine as it was, but for the end of memory.** -/
theorem fails_of_step_error (failed : m.step = (.error fault, m')) : m.Fails fault m' := by
  by_cases running : m.status = .running
  · have stepping := m.step_stepping running
    rw [failed] at stepping
    cases stepping with
    | refused =>
      refine ⟨rfl, rfl, rfl, rfl, by rw [if_pos running], .inl ?_⟩
      rw [stopped, if_pos running]
    | @stranded i e _ fetched resolved stays stuck =>
      refine ⟨m.input_apply e, counter_apply_of_not_manages resolved stays, m.steps_apply e,
        m.last_apply e, by rw [if_pos running], .inr ⟨?_, ?_, i, e, fetched, resolved, rfl⟩⟩
      · exact ⟨i, fetched, stays, reaches_end_of_stuck fetched resolved stays stuck⟩
      · rw [following] at stuck
        cases hn : Cell.ofInt? (m.counter.toInt + i.width) <;> rw [hn] at stuck <;> cases stuck
        rfl
  · rw [step_of_not_running m running] at failed
    cases failed
    refine ⟨rfl, rfl, rfl, rfl, by rw [if_neg running], .inl ?_⟩
    rw [stopped, if_neg running]

/-! ## Runs to the next output -/

/-- A failed step appends no output, but for an output instruction at the end of memory. -/
theorem Fails.outputs (fails : m.Fails fault m') :
    m'.outputs = m.outputs ∨ m'.AtEnd ∧ ∃ value, m'.outputs = m.outputs.push value := by
  rcases fails.spares with rfl | ⟨ending, -, i, e, -, -, rfl⟩
  · exact .inl rfl
  · cases e with
    | emit value =>
      -- An output changes neither memory nor counter, so the same instruction is still there.
      exact .inr ⟨ending, value, rfl⟩
    | _ => exact .inl rfl

theorem stepsToOutput_error {seen fuel : Nat}
    (failed : m.stepsToOutput seen fuel = some (.error fault, m')) (fresh : seen = m.outputs.size) :
    m'.outputs = m.outputs ∨ m'.AtEnd ∧ ∃ value, m'.outputs = m.outputs.push value := by
  induction fuel generalizing m with
  | zero =>
    by_cases halted : m.status = .halted
    · rw [stepsToOutput_halted halted] at failed
      cases failed
    · rw [stepsToOutput_zero halted] at failed
      cases failed
  | succ fuel ih =>
    by_cases halted : m.status = .halted
    · rw [stepsToOutput_halted halted] at failed
      cases failed
    rw [stepsToOutput_succ halted] at failed
    split at failed
    · rename_i i m₁ hs
      split at failed
      · cases failed
      · rename_i unseen
        -- The run goes on, so the instruction has not been an output.
        rcases outputs_of_step_ok hs with ⟨value, outputs, -⟩ | ⟨outputs, -⟩
        · rw [fresh, outputs, Array.getElem?_push_size] at unseen
          cases unseen
        · rw [← outputs]
          exact ih failed (outputs ▸ fresh)
    · rename_i hs
      cases failed
      exact (fails_of_step_error hs).outputs

/-! ## The statement -/

/-- **A failed step has no effect but the fault, except at the end of memory.**  Input register,
counter, steps and last instruction stay in any case, and the status changes only from running to
faulted.  Memory, outputs and base stay unless the instruction takes the last cell of memory; nor is
an output appended by a run to the next output that fails anywhere else. -/
theorem failing_step_spares (m : Machine) :
    (∀ fault m', m.step = (.error fault, m') → m.Fails fault m') ∧
      ∀ fault m', Returns (fun fuel => m.runToOutput fuel) (.error fault, m') →
        m'.outputs = m.outputs ∨ m'.AtEnd ∧ ∃ value, m'.outputs = m.outputs.push value :=
  ⟨fun _ _ failed => fails_of_step_error failed,
    fun _ _ ⟨_, failed⟩ => stepsToOutput_error failed rfl⟩

/-- After the output of 7 there is no instruction, and the run that finds this adds no output. -/
theorem unknown_opcode_spares :
    ∃ m m', (load [104, 7, 5000] none).runToOutput 1 = some (.ok (.output 7), m) ∧
      m.step = (.error (.decode (.unknownOpcode 0)), m') ∧
      m.Fails (.decode (.unknownOpcode 0)) m' ∧
      (m'.outputs = m.outputs ∨ m'.AtEnd ∧ ∃ value, m'.outputs = m.outputs.push value) := by
  obtain ⟨m, first, m', second, run⟩ :
      ∃ m, (load [104, 7, 5000] none).runToOutput 1 = some (.ok (.output 7), m) ∧
        ∃ m', m.step = (.error (.decode (.unknownOpcode 0)), m') ∧
          m.runToOutput 1 = some (.error (.decode (.unknownOpcode 0)), m') :=
    ⟨_, rfl, _, rfl, rfl⟩
  obtain ⟨steps, runs⟩ := failing_step_spares m
  exact ⟨m, m', first, second, steps _ _ second, runs _ _ ⟨1, run⟩⟩

/-- Writes an output instruction to the second address from the end of memory and jumps there. -/
def endOfMemoryProgram : List Cell :=
  [1101, 104, 0, 9223372036854775806, 1106, 0, 9223372036854775806]

/-- The machine of that program at the end of memory. -/
def atEndOfMemory : Machine := (load endOfMemoryProgram none).step.2.step.2

/-- **A failed step can have appended an output**: the third step of the program fails, having
emitted 0. -/
theorem failed_step_emits :
    ¬ ∀ (image : List Cell) (input : Option Cell) (operations : List Operation)
        (answers : List Answer) (m : Machine) (fault : Fault) (m' : Machine),
        (load image input).Session operations answers m → m.step = (.error fault, m') →
        m'.outputs = m.outputs := by
  intro spares
  have session : (load endOfMemoryProgram none).Session [.step, .step] _ atEndOfMemory :=
    .cons ⟨0, rfl⟩ (.cons ⟨0, rfl⟩ (.nil _))
  have overflow : atEndOfMemory.step.1 = .error .overflow := by rfl
  have outputs : atEndOfMemory.step.2.outputs ≠ atEndOfMemory.outputs := by decide
  exact outputs (spares _ _ _ _ _ _ _ session (Prod.ext overflow rfl))

end Machine
end IntcodeMachine
