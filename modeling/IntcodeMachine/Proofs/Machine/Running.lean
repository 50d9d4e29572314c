import IntcodeMachine.Machine.Run
import IntcodeMachine.Proofs.Machine.Stepping
import IntcodeMachine.Proofs.Returning

/-! # Runs

What is known of a machine that has been run, whatever its program.  Both ways of
running are steady, so that a run has at most one result.  A run to the next output
leaves the machine in one of three states (`Surfaces`): running with exactly one
more output, halted with no further output, or faulted.  From the last two every
later run to an output returns at once (`runToOutput_halted`,
`runToOutput_faulted`).
-/
namespace IntcodeMachine
namespace Machine

/-! ## Runs are steady -/

theorem runSteps_succ {m : Machine} (running : m.status = .running) (fuel : Nat) :
    m.runSteps (fuel + 1) =
      match m.step with
      | (.ok _, m') => m'.runSteps fuel
      | (.error fault, m') => some (.error fault, m') := by
  rw [runSteps]
  split
  · rfl
  · contradiction

theorem runSteps_of_not_running {m : Machine} (stopped : m.status ≠ .running) (fuel : Nat) :
    m.runSteps fuel = some (.ok (), m) := by
  unfold runSteps
  split
  · contradiction
  · rfl

theorem runSteps_zero {m : Machine} (running : m.status = .running) : m.runSteps 0 = none := by
  rw [runSteps, running]

theorem steady_runSteps (m : Machine) : Steady fun fuel => m.runSteps fuel := by
  intro fuel a h
  change m.runSteps fuel = some a at h
  change m.runSteps (fuel + 1) = some a
  induction fuel generalizing m with
  | zero =>
    by_cases running : m.status = .running
    · rw [runSteps_zero running] at h
      contradiction
    · rw [runSteps_of_not_running running] at h ⊢
      exact h
  | succ fuel ih =>
    by_cases running : m.status = .running
    · rw [runSteps_succ running] at h ⊢
      split at h
      · exact ih _ h
      · exact h
    · rw [runSteps_of_not_running running] at h ⊢
      exact h

theorem steady_run (m : Machine) : Steady fun fuel => m.run fuel := by
  intro fuel a h
  unfold run at h ⊢
  split
  · rename_i faulted
    rw [faulted] at h
    exact h
  · rename_i sound
    split at h
    · contradiction
    · exact m.steady_runSteps.map _ fuel a h

theorem stepsToOutput_succ {m : Machine} (live : m.status ≠ .halted) (seen fuel : Nat) :
    m.stepsToOutput seen (fuel + 1) =
      match m.step with
      | (.ok _, m') =>
        match m'.outputs[seen]? with
        | some value => some (.ok (.output value), m')
        | none => m'.stepsToOutput seen fuel
      | (.error fault, m') => some (.error fault, m') := by
  rw [stepsToOutput]
  split
  · contradiction
  · rfl

theorem stepsToOutput_halted {m : Machine} (halted : m.status = .halted) (seen fuel : Nat) :
    m.stepsToOutput seen fuel = some (.ok .halted, m) := by
  unfold stepsToOutput
  rw [halted]

theorem stepsToOutput_zero {m : Machine} (live : m.status ≠ .halted) (seen : Nat) :
    m.stepsToOutput seen 0 = none := by
  rw [stepsToOutput]
  split
  · contradiction
  · rfl

theorem steady_stepsToOutput (m : Machine) (seen : Nat) :
    Steady fun fuel => m.stepsToOutput seen fuel := by
  intro fuel a h
  change m.stepsToOutput seen fuel = some a at h
  change m.stepsToOutput seen (fuel + 1) = some a
  induction fuel generalizing m with
  | zero =>
    by_cases halted : m.status = .halted
    · rw [stepsToOutput_halted halted] at h ⊢
      exact h
    · rw [stepsToOutput_zero halted] at h
      contradiction
  | succ fuel ih =>
    by_cases halted : m.status = .halted
    · rw [stepsToOutput_halted halted] at h ⊢
      exact h
    · rw [stepsToOutput_succ halted] at h ⊢
      split at h
      · split at h
        · exact h
        · exact ih _ h
      · exact h

theorem steady_runToOutput (m : Machine) : Steady fun fuel => m.runToOutput fuel :=
  m.steady_stepsToOutput m.outputs.size

/-! ## What a run to the next output leaves -/

/-- An executed instruction adds one output and the machine runs on, or it adds none. -/
theorem outputs_of_step_ok {m m' : Machine} {i : Instruction} (h : m.step = (.ok i, m')) :
    (∃ value, m'.outputs = m.outputs.push value ∧ m'.status = .running) ∨
      (m'.outputs = m.outputs ∧ m'.status ≠ .faulted) := by
  have running := running_of_step_ok h
  have stepping := m.step_stepping running
  rw [h] at stepping
  cases stepping with
  | @executed _ e c _ _ _ =>
    cases e with
    | emit value => exact .inl ⟨value, rfl, running⟩
    | halt => exact .inr ⟨rfl, Status.noConfusion⟩
    | _ =>
      refine .inr ⟨rfl, ?_⟩
      change m.status ≠ .faulted
      rw [running]
      exact Status.noConfusion

theorem faulted_of_step_error {m m' : Machine} {fault : Fault} (live : m.status ≠ .halted)
    (h : m.step = (.error fault, m')) : m'.status = .faulted := by
  cases hs : m.status with
  | running =>
    have stepping := m.step_stepping hs
    rw [h] at stepping
    cases stepping <;> rfl
  | halted => contradiction
  | faulted =>
    rw [step_of_not_running m (by rw [hs]; exact Status.noConfusion)] at h
    cases h
    exact hs

/-- **The ways in which a run to the next output leaves a machine**, given the outputs before. -/
inductive Surfaces (before : Array Cell) : Result Outcome → Prop
  /-- There is exactly one more output. -/
  | output {value : Cell} {m : Machine} (running : m.status = .running)
      (outputs : m.outputs = before.push value) : Surfaces before (.ok (.output value), m)
  /-- The machine has halted before it had another output. -/
  | halted {m : Machine} (halted : m.status = .halted) (outputs : m.outputs = before) :
      Surfaces before (.ok .halted, m)
  | faulted {fault : Fault} {m : Machine} (faulted : m.status = .faulted) :
      Surfaces before (.error fault, m)

theorem stepsToOutput_surfaces {fuel : Nat} {m : Machine} {r : Result Outcome}
    (h : m.stepsToOutput m.outputs.size fuel = some r) : Surfaces m.outputs r := by
  induction fuel generalizing m with
  | zero =>
    by_cases halted : m.status = .halted
    · rw [stepsToOutput_halted halted] at h
      cases h
      exact .halted halted rfl
    · rw [stepsToOutput_zero halted] at h
      contradiction
  | succ fuel ih =>
    by_cases halted : m.status = .halted
    · rw [stepsToOutput_halted halted] at h
      cases h
      exact .halted halted rfl
    rw [stepsToOutput_succ halted] at h
    split at h
    · rename_i i m' hs
      rcases outputs_of_step_ok hs with ⟨value, outputs, running'⟩ | ⟨outputs, -⟩
      · rw [outputs, Array.getElem?_push_size] at h
        cases h
        exact .output running' outputs
      · -- Without an output the next round looks for the same one.
        rw [← outputs, Array.getElem?_size] at h
        exact outputs ▸ ih h
    · rename_i fault m' hs
      cases h
      exact .faulted (faulted_of_step_error halted hs)

theorem runToOutput_surfaces {fuel : Nat} {m : Machine} {r : Result Outcome}
    (h : m.runToOutput fuel = some r) : Surfaces m.outputs r :=
  stepsToOutput_surfaces h

theorem runToOutput_halted {m : Machine} (halted : m.status = .halted) (fuel : Nat) :
    m.runToOutput fuel = some (.ok .halted, m) :=
  stepsToOutput_halted halted _ fuel

theorem runToOutput_faulted {m : Machine} (faulted : m.status = .faulted) (fuel : Nat) :
    m.runToOutput (fuel + 1) = some (.error (.notRunning .faulted), m) := by
  rw [runToOutput, stepsToOutput_succ (by rw [faulted]; exact Status.noConfusion),
    step_of_not_running m (by rw [faulted]; exact Status.noConfusion), faulted]

end Machine
end IntcodeMachine
