import IntcodeMachine.Proofs.Machine.Running

/-! # Three ways of driving a machine

A machine can be stepped until it no longer runs (`StepsToEnd`), run to its end in
one go, or run from output to output until there is no more (`OutputsToEnd`).
`ways_agree` says that whenever a run to the end returns, the other two come to the
same result and leave the same machine, whatever the program does.

The first two are the same loop.  For the third the induction is on the steps: a
step that emits is a whole run to an output, any other step is put in front of the
first run of those that follow (`OutputsToEnd.of_silent_step`).  The number of
outputs that a run has seen need not be kept anywhere, since a step appends one
output at most.
-/
namespace IntcodeMachine
namespace Machine

variable {m m₁ m' : Machine} {i : Instruction}

/-! ## Steps -/

/-- **Stepping a machine until it no longer runs** executes this number of instructions, ends well
or with a fault, and leaves this machine. -/
inductive StepsToEnd : Machine → Nat → Except Fault Unit → Machine → Prop
  | stopped {m : Machine} (stopped : m.status ≠ .running) : StepsToEnd m 0 (.ok ()) m
  | executes {m m₁ m' : Machine} {i : Instruction} {k : Nat} {result : Except Fault Unit}
      (step : m.step = (.ok i, m₁)) (rest : StepsToEnd m₁ k result m') :
      StepsToEnd m (k + 1) result m'
  | fails {m m' : Machine} {fault : Fault} (running : m.status = .running)
      (step : m.step = (.error fault, m')) : StepsToEnd m 0 (.error fault) m'

/-- A machine that has halted is at the instruction that has halted it. -/
def AtHalt (m : Machine) : Prop :=
  m.status = .halted ∧ 0 ≤ m.counter.toInt ∧
    ∃ i, Instruction.decode (m.memory.view m.counter.toInt) = .ok i ∧ i.opcode = .halt

/-- Only the instruction that halts stops a machine, and the counter stays there. -/
theorem atHalt_of_step (step : m.step = (.ok i, m')) (stopped : m'.status ≠ .running) :
    m'.AtHalt := by
  have running := running_of_step_ok step
  have stepping := m.step_stepping running
  rw [step] at stepping
  cases stepping with
  | @executed _ e c fetched resolved lands =>
    have status : (m.apply e).status = _ := status_apply_of_effect resolved
    have halts : i.opcode = .halt := by
      refine Decidable.byContradiction fun other => ?_
      rw [if_neg other, running] at status
      exact stopped status
    obtain rfl := (effect_causes resolved).eq_halt_iff.mp halts
    rw [Lands, halts, if_pos (by decide)] at lands
    obtain rfl : c = m.counter := lands
    obtain ⟨nonneg, decodes⟩ := fetch_eq_ok.mp fetched
    exact ⟨rfl, nonneg, i, decodes, halts⟩

theorem StepsToEnd.atHalt {k : Nat} {result : Except Fault Unit} (steps : m.StepsToEnd k result m')
    (running : m.status = .running) (ok : result = .ok ()) : m'.AtHalt := by
  induction steps with
  | stopped stopped => exact absurd running stopped
  | fails => cases ok
  | @executes m m₁ _ _ _ _ step rest ih =>
    by_cases running₁ : m₁.status = .running
    · exact ih running₁ ok
    · cases rest with
      | stopped stopped => exact atHalt_of_step step stopped
      | executes next => exact absurd (running_of_step_ok next) running₁
      | fails running => exact absurd running running₁

theorem steps_of_step_ok (step : m.step = (.ok i, m')) : m'.steps = m.steps + 1 := by
  have stepping := m.step_stepping (running_of_step_ok step)
  rw [step] at stepping
  cases stepping
  rfl

/-- The machine counts the instructions, modulo 2^64. -/
theorem StepsToEnd.steps {k : Nat} {result : Except Fault Unit} (steps : m.StepsToEnd k result m')
    (ok : result = .ok ()) : m'.steps = m.steps + UInt64.ofNat k := by
  induction steps with
  | stopped => simp
  | fails => cases ok
  | @executes _ _ _ _ k _ step _ ih =>
    rw [ih ok, steps_of_step_ok step, UInt64.add_assoc, UInt64.ofNat_add,
      UInt64.add_comm (UInt64.ofNat k)]
    rfl

/-! ## The run to the end -/

theorem stepsToEnd_of_runSteps {fuel : Nat} {result : Except Fault Unit}
    (ran : m.runSteps fuel = some (result, m')) : ∃ k, m.StepsToEnd k result m' := by
  induction fuel generalizing m with
  | zero =>
    by_cases running : m.status = .running
    · rw [runSteps_zero running] at ran
      cases ran
    · rw [runSteps_of_not_running running] at ran
      cases ran
      exact ⟨0, .stopped running⟩
  | succ fuel ih =>
    by_cases running : m.status = .running
    · rw [runSteps_succ running] at ran
      split at ran
      · rename_i step
        obtain ⟨k, steps⟩ := ih ran
        exact ⟨k + 1, .executes step steps⟩
      · rename_i step
        cases ran
        exact ⟨0, .fails running step⟩
    · rw [runSteps_of_not_running running] at ran
      cases ran
      exact ⟨0, .stopped running⟩

/-- **To run a machine to its end is to step it**, and the answer is the number of steps. -/
theorem stepsToEnd_of_run {fuel : Nat} {result : Except Fault UInt64}
    (running : m.status = .running) (ran : m.run fuel = some (result, m')) :
    ∃ k, m.StepsToEnd k (result.map fun _ => ()) m' ∧ ∀ n, result = .ok n → n = UInt64.ofNat k := by
  simp only [run, running] at ran
  obtain ⟨⟨ended, m₁⟩, steps, answer⟩ := Option.map_eq_some_iff.mp ran
  obtain ⟨k, steps⟩ := stepsToEnd_of_runSteps steps
  cases ended with
  | error fault =>
    cases answer
    exact ⟨k, steps, fun _ h => (nomatch h)⟩
  | ok _ =>
    cases answer
    refine ⟨k, steps, fun n h => ?_⟩
    cases h
    rw [steps.steps rfl, UInt64.add_comm, UInt64.add_sub_cancel]

/-! ## Runs from output to output -/

/-- **Running a machine from output to output**, until a run has none, gives these outputs, ends
well or with a fault, and leaves this machine. -/
inductive OutputsToEnd : Machine → List Cell → Except Fault Unit → Machine → Prop
  | halted {m m' : Machine} (run : Returns (fun fuel => m.runToOutput fuel) (.ok .halted, m')) :
      OutputsToEnd m [] (.ok ()) m'
  | failed {m m' : Machine} {fault : Fault}
      (run : Returns (fun fuel => m.runToOutput fuel) (.error fault, m')) :
      OutputsToEnd m [] (.error fault) m'
  | output {m m₁ m' : Machine} {value : Cell} {values : List Cell} {result : Except Fault Unit}
      (run : Returns (fun fuel => m.runToOutput fuel) (.ok (.output value), m₁))
      (rest : OutputsToEnd m₁ values result m') : OutputsToEnd m (value :: values) result m'

/-- A step without an output leaves the run to the next one as it is. -/
theorem returns_runToOutput_of_silent_step {r : Result Outcome} (step : m.step = (.ok i, m₁))
    (silent : m₁.outputs = m.outputs) (run : Returns (fun fuel => m₁.runToOutput fuel) r) :
    Returns (fun fuel => m.runToOutput fuel) r := by
  obtain ⟨fuel, run⟩ := run
  have live : m.status ≠ .halted := by
    simp [running_of_step_ok step]
  refine ⟨fuel + 1, ?_⟩
  change m.stepsToOutput m.outputs.size (fuel + 1) = some r
  rw [stepsToOutput_succ live, step, ← silent]
  simp only [Array.getElem?_size]
  exact run

theorem OutputsToEnd.of_silent_step {values : List Cell} {result : Except Fault Unit}
    (rest : m₁.OutputsToEnd values result m') (step : m.step = (.ok i, m₁))
    (silent : m₁.outputs = m.outputs) : m.OutputsToEnd values result m' := by
  cases rest with
  | halted run => exact .halted (returns_runToOutput_of_silent_step step silent run)
  | failed run => exact .failed (returns_runToOutput_of_silent_step step silent run)
  | output run rest => exact .output (returns_runToOutput_of_silent_step step silent run) rest

/-- **Steps to the end are runs from output to output.**  If the end is no fault, these have all the
outputs there are. -/
theorem StepsToEnd.outputsToEnd {k : Nat} {result : Except Fault Unit}
    (steps : m.StepsToEnd k result m') (live : m.status ≠ .faulted) :
    ∃ values, m.OutputsToEnd values result m' ∧
      (result = .ok () → m'.outputs.toList = m.outputs.toList ++ values) := by
  induction steps with
  | @stopped m stopped =>
    have halted : m.status = .halted := by
      cases h : m.status with
      | running => contradiction
      | halted => rfl
      | faulted => contradiction
    exact ⟨[], .halted ⟨0, runToOutput_halted halted 0⟩, fun _ => (List.append_nil _).symm⟩
  | @fails m m' fault running step =>
    refine ⟨[], .failed ⟨1, ?_⟩, fun h => (nomatch h)⟩
    change m.stepsToOutput m.outputs.size 1 = _
    rw [stepsToOutput_succ (by simp [running]), step]
  | @executes m m₁ m' i k result step rest ih =>
    rcases outputs_of_step_ok step with ⟨value, outputs, running₁⟩ | ⟨silent, live₁⟩
    · obtain ⟨values, ends, all⟩ := ih (by simp [running₁])
      refine ⟨value :: values, .output ⟨1, ?_⟩ ends, fun ok => ?_⟩
      · change m.stepsToOutput m.outputs.size 1 = _
        rw [stepsToOutput_succ (by simp [running_of_step_ok step]), step]
        simp only [outputs, Array.getElem?_push_size]
      · rw [all ok, outputs, Array.toList_push, List.append_assoc]
        rfl
    · obtain ⟨values, ends, all⟩ := ih live₁
      exact ⟨values, ends.of_silent_step step silent, fun ok => silent ▸ all ok⟩

/-! ## The statement -/

/-- **The three ways of driving a machine agree.**  Whenever a run of a running machine returns,
stepping it until it no longer runs, and running it from output to output, end in the same way and
leave the same machine.  If that is no fault, the run answers the number of steps, as far as 64 bits
count them, the machine is at the instruction that has halted it, and the outputs that the runs gave
one by one are those that have been appended. -/
theorem ways_agree {m m' : Machine} {result : Except Fault UInt64} (running : m.status = .running)
    (ran : Returns (fun fuel => m.run fuel) (result, m')) :
    ∃ k values, m.StepsToEnd k (result.map fun _ => ()) m' ∧
      m.OutputsToEnd values (result.map fun _ => ()) m' ∧
      ∀ n, result = .ok n →
        (m.steps.toNat + k < UInt64.size → n.toNat = k) ∧ m'.AtHalt ∧
          m'.outputs.toList = m.outputs.toList ++ values := by
  obtain ⟨fuel, ran⟩ := ran
  obtain ⟨k, steps, answer⟩ := stepsToEnd_of_run running ran
  obtain ⟨values, outputs, all⟩ :=
    steps.outputsToEnd (by simp [running])
  refine ⟨k, values, steps, outputs, ?_⟩
  rintro n rfl
  refine ⟨fun small => ?_, steps.atHalt running rfl, all rfl⟩
  rw [answer n rfl]
  exact UInt64.toNat_ofNat_of_lt' (by omega)

/-- The program outputs 1 and 2 and halts, so the runs to an output give these and then no more. -/
theorem ways_agree_two_outputs :
    ∃ m' k, (load [104, 1, 104, 2, 99] none).status = .running ∧
      Returns (fun fuel => (load [104, 1, 104, 2, 99] none).run fuel) (.ok 3, m') ∧
      (load [104, 1, 104, 2, 99] none).StepsToEnd k (.ok ()) m' ∧
      (load [104, 1, 104, 2, 99] none).OutputsToEnd [1, 2] (.ok ()) m' ∧ m'.AtHalt := by
  have running : (load [104, 1, 104, 2, 99] none).status = .running := rfl
  have ran : Returns (fun fuel => (load [104, 1, 104, 2, 99] none).run fuel)
      (.ok 3, (load [104, 1, 104, 2, 99] none).step.2.step.2.step.2) := ⟨3, by rfl⟩
  obtain ⟨k, values, steps, outputs, ends⟩ := ways_agree running ran
  obtain ⟨-, atHalt, all⟩ := ends 3 rfl
  obtain rfl : [1, 2] = values := all
  exact ⟨_, k, running, ran, steps, outputs, atHalt⟩

end Machine
end IntcodeMachine
