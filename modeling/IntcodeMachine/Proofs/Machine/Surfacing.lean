import IntcodeMachine.Proofs.Machine.Executing
import IntcodeMachine.Proofs.Machine.Operations

/-! # Every output surfaces once

A run to the next output remembers how many outputs there were and looks, after each
step, whether there is one more.  It relies on what a single step does: an
instruction adds one output at most and takes none back.  So a run consists of steps
without an output (`Silent`) and of one step more, or none if the machine has halted
by then (`SurfacesAfter`); `returns_runToOutput_iff` says that this is all there is to
it, for a machine in whatever state and with whatever outputs from before.

Silent steps can be taken off the front of a run (`runToOutput_add`), which also says
how many steps a run takes.  Runs in a row return what they add to the outputs, one
by one (`outputs_of_runs`, by induction on the runs).
-/
namespace IntcodeMachine
namespace Machine

variable {m m' : Machine} {i : Instruction} {k fuel : Nat} {value : Cell} {r : Result Outcome}

/-! ## Steps without an output -/

/-- **The first `k` steps of the machine execute instructions and add no output.** -/
def Silent (m : Machine) (k : Nat) : Prop :=
  ∀ j < k, (∃ i, (m.afterSteps j).step.1 = .ok i) ∧ (m.afterSteps (j + 1)).outputs = m.outputs

theorem silent_zero (m : Machine) : m.Silent 0 := fun _ h => absurd h (Nat.not_lt_zero _)

/-- Silent steps are a silent step and the silent steps of the machine after it. -/
theorem silent_succ_iff :
    m.Silent (k + 1) ↔
      ((∃ i, m.step.1 = .ok i) ∧ m.step.2.outputs = m.outputs) ∧ m.step.2.Silent k := by
  constructor
  · intro silent
    have first := silent 0 (Nat.succ_pos k)
    refine ⟨first, fun j h => ?_⟩
    have later := silent (j + 1) (Nat.succ_lt_succ h)
    exact ⟨later.1, later.2.trans first.2.symm⟩
  · rintro ⟨first, rest⟩ j h
    rcases j with _ | j
    · exact first
    · have later := rest j (Nat.lt_of_succ_lt_succ h)
      exact ⟨later.1, later.2.trans first.2⟩

/-- The outputs stay what they were at the start of silent steps. -/
theorem Silent.outputs (silent : m.Silent k) : (m.afterSteps k).outputs = m.outputs := by
  rcases k with _ | k
  · rfl
  · exact (silent k (Nat.lt_succ_self k)).2

theorem afterSteps_succ (m : Machine) (k : Nat) :
    m.afterSteps (k + 1) = (m.afterSteps k).step.2 := by
  induction k generalizing m with
  | zero => rfl
  | succ k ih => exact ih m.step.2

/-- A machine that executes an instruction has not halted. -/
theorem live_of_step_ok (h : m.step.1 = .ok i) : m.status ≠ .halted := by
  have step : m.step = (.ok i, m.step.2) := by rw [← h]
  rw [running_of_step_ok step]
  exact Status.noConfusion

/-- **Silent steps can be taken off the front of a run**, since the run goes on after each of them
and still waits for the same output. -/
theorem runToOutput_add (silent : m.Silent k) (fuel : Nat) :
    m.runToOutput (k + fuel) = (m.afterSteps k).runToOutput fuel := by
  induction k generalizing m with
  | zero => rw [Nat.zero_add]; rfl
  | succ k ih =>
    obtain ⟨⟨⟨i, executes⟩, quiet⟩, rest⟩ := silent_succ_iff.mp silent
    have step : m.step = (.ok i, m.step.2) := by rw [← executes]
    have goesOn : m.runToOutput (k + fuel + 1) = m.step.2.runToOutput (k + fuel) := by
      show m.stepsToOutput m.outputs.size (k + fuel + 1) = _
      rw [stepsToOutput_succ (live_of_step_ok executes), step]
      simp only [← quiet, Array.getElem?_size]
      rfl
    rw [Nat.add_right_comm, goesOn, ih rest]
    rfl

/-! ## How a run ends -/

/-- **The ways in which a run ends after `k` silent steps.** -/
inductive SurfacesAfter (m : Machine) (k : Nat) : Result Outcome → Prop
  /-- The next step adds an output. -/
  | output {i : Instruction} {value : Cell} {m' : Machine}
      (step : (m.afterSteps k).step = (.ok i, m')) (outputs : m'.outputs = m.outputs.push value) :
      SurfacesAfter m k (.ok (.output value), m')
  /-- The machine has halted. -/
  | halted (halted : (m.afterSteps k).status = .halted) :
      SurfacesAfter m k (.ok .halted, m.afterSteps k)
  /-- The next step fails. -/
  | failed {fault : Fault} {m' : Machine} (live : (m.afterSteps k).status ≠ .halted)
      (step : (m.afterSteps k).step = (.error fault, m')) :
      SurfacesAfter m k (.error fault, m')

theorem exists_surfacesAfter (ran : m.runToOutput fuel = some r) :
    ∃ k, m.Silent k ∧ m.SurfacesAfter k r := by
  change m.stepsToOutput m.outputs.size fuel = some r at ran
  induction fuel generalizing m with
  | zero =>
    by_cases halted : m.status = .halted
    · rw [stepsToOutput_halted halted] at ran
      cases ran
      exact ⟨0, m.silent_zero, .halted halted⟩
    · rw [stepsToOutput_zero halted] at ran
      cases ran
  | succ fuel ih =>
    by_cases halted : m.status = .halted
    · rw [stepsToOutput_halted halted] at ran
      cases ran
      exact ⟨0, m.silent_zero, .halted halted⟩
    rw [stepsToOutput_succ halted] at ran
    rcases step : m.step with ⟨result, m₁⟩
    rw [step] at ran
    cases result with
    | error fault =>
      cases ran
      exact ⟨0, m.silent_zero, .failed halted step⟩
    | ok i =>
      rcases outputs_of_step_ok step with ⟨value, outputs, -⟩ | ⟨quiet, -⟩
      · simp only [outputs, Array.getElem?_push_size] at ran
        cases ran
        exact ⟨0, m.silent_zero, .output step outputs⟩
      · -- Nothing has been added, so the rest of the run waits for the same output.
        simp only [← quiet, Array.getElem?_size] at ran
        obtain ⟨k, silent, surfaces⟩ := ih ran
        have same : m.step.2 = m₁ := congrArg Prod.snd step
        refine ⟨k + 1, silent_succ_iff.mpr ⟨⟨⟨i, congrArg Prod.fst step⟩, ?_⟩, ?_⟩, ?_⟩
        · rw [same, quiet]
        · rwa [same]
        · have steps : m.afterSteps (k + 1) = m₁.afterSteps k := congrArg (·.afterSteps k) same
          cases surfaces with
          | output next outputs => exact .output (steps ▸ next) (quiet ▸ outputs)
          | halted halted => exact steps ▸ .halted (steps ▸ halted)
          | failed live next => exact .failed (steps ▸ live) (steps ▸ next)

theorem runToOutput_of_output (silent : m.Silent k) (step : (m.afterSteps k).step = (.ok i, m'))
    (outputs : m'.outputs = m.outputs.push value) :
    m.runToOutput (k + 1) = some (.ok (.output value), m') := by
  rw [runToOutput_add silent]
  show (m.afterSteps k).stepsToOutput _ 1 = _
  rw [stepsToOutput_succ (live_of_step_ok (congrArg Prod.fst step)), step]
  simp only [outputs, silent.outputs, Array.getElem?_push_size]

/-- **A run returns what comes after its silent steps**, and nothing else. -/
theorem returns_runToOutput_iff :
    Returns (fun fuel => m.runToOutput fuel) r ↔ ∃ k, m.Silent k ∧ m.SurfacesAfter k r := by
  constructor
  · rintro ⟨fuel, ran⟩
    exact exists_surfacesAfter ran
  · rintro ⟨k, silent, surfaces⟩
    refine ⟨k + 1, ?_⟩
    show m.runToOutput (k + 1) = some r
    cases surfaces with
    | output step outputs => exact runToOutput_of_output silent step outputs
    | halted halted =>
      rw [runToOutput_add silent]
      exact runToOutput_halted halted 1
    | failed live step =>
      rw [runToOutput_add silent]
      show (m.afterSteps k).stepsToOutput _ 1 = _
      rw [stepsToOutput_succ live, step]

/-! ## A run with an output -/

/-- **A run to the next output that has one.** -/
structure Surfaced (m : Machine) (value : Cell) (m' : Machine) : Prop where
  /-- The output is the only new one, -/
  outputs : m'.outputs.toList = m.outputs.toList ++ [value]
  running : m'.status = .running
  /-- the last instruction has added it, -/
  last : ∃ i, m'.last = some i ∧ i.opcode = .output
  /-- and the run takes this step after silent ones, neither more steps nor fewer. -/
  steps : ∃ k, m.Silent k ∧ m' = m.afterSteps (k + 1) ∧
    ∀ fuel, m.runToOutput fuel = some (.ok (.output value), m') ↔ k < fuel

/-- An instruction that adds an output is an output instruction. -/
theorem opcode_of_outputs_push {n : Machine} (step : m.step = (.ok i, n))
    (outputs : n.outputs = m.outputs.push value) : i.opcode = .output := by
  refine Decidable.byContradiction fun other => ?_
  have same := congrArg List.length (outputs_of_other step other)
  rw [outputs, Array.toList_push, List.length_append, List.length_singleton] at same
  omega

theorem surfaced_of_returns
    (returns : Returns (fun fuel => m.runToOutput fuel) (.ok (.output value), m')) :
    m.Surfaced value m' := by
  obtain ⟨k, silent, surfaces⟩ := returns_runToOutput_iff.mp returns
  cases surfaces with
  | @output i _ _ step outputs =>
    have puts : i.opcode = .output := by
      rw [← silent.outputs] at outputs
      exact opcode_of_outputs_push step outputs
    have performs := (performs_of_step_ok step).2
    refine ⟨?_, ?_, ⟨i, performs.last, puts⟩, k, silent, ?_, fun fuel => ?_⟩
    · rw [outputs, Array.toList_push]
    · rw [performs.status, puts]
      rfl
    · rw [afterSteps_succ, step]
    · constructor
      · intro ran
        refine Nat.lt_of_not_le fun few => ?_
        -- With `k` steps or fewer the run has not come to the output.
        have none : m.runToOutput k = none := by
          have := runToOutput_add silent 0
          rw [Nat.add_zero] at this
          rw [this]
          exact stepsToOutput_zero (live_of_step_ok (congrArg Prod.fst step)) _
        rw [m.steady_runToOutput.le few ran] at none
        cases none
      · intro enough
        exact m.steady_runToOutput.le enough (runToOutput_of_output silent step outputs)

/-! ## Runs in a row -/

/-- **Runs in a row return what they add to the outputs.** -/
theorem outputs_of_runs {outcomes : List Outcome}
    (session : m.Session (List.replicate outcomes.length .runToOutput)
      (outcomes.map fun outcome => .surfaced (.ok outcome)) m') :
    m'.outputs.toList = m.outputs.toList ++ outcomes.filterMap Outcome.output? := by
  induction outcomes generalizing m with
  | nil =>
    cases session
    exact (List.append_nil _).symm
  | cons outcome outcomes ih =>
    rw [List.length_cons, List.replicate_succ, List.map_cons] at session
    cases session with
    | cons first rest =>
      obtain ⟨fuel, first⟩ := first
      obtain ⟨⟨result, m₁⟩, ran, answer⟩ := Option.map_eq_some_iff.mp first
      cases answer
      rw [ih rest]
      cases runToOutput_surfaces ran with
      | output running outputs =>
        rw [outputs, Array.toList_push, List.append_assoc]
        rfl
      | halted halted outputs =>
        rw [outputs]
        rfl

/-! ## The statement -/

/-- **A run to the next output skips none, merges none and repeats none.**  Whatever the state of the
machine and its outputs so far, a run that returns an output has added just this one, with its last
step; a run that ends with the machine halted has added none, and one that fails leaves the machine
faulted.  A machine that has stopped before is left as it is.  So runs in a row return exactly what is
new among the outputs, in order. -/
theorem surfaces_each_output (m : Machine) :
    (∀ value m', Returns (fun fuel => m.runToOutput fuel) (.ok (.output value), m') →
      m.Surfaced value m') ∧
    (∀ m', Returns (fun fuel => m.runToOutput fuel) (.ok .halted, m') →
      m'.outputs = m.outputs ∧ m'.status = .halted ∧ (m.status = .halted → m' = m)) ∧
    (∀ fault m', Returns (fun fuel => m.runToOutput fuel) (.error fault, m') →
      m'.status = .faulted ∧ (m.status = .faulted → m' = m)) ∧
    ∀ (outcomes : List Outcome) m', m.Session (List.replicate outcomes.length .runToOutput)
      (outcomes.map fun outcome => .surfaced (.ok outcome)) m' →
      m'.outputs.toList = m.outputs.toList ++ outcomes.filterMap Outcome.output? := by
  refine ⟨fun value m' returns => surfaced_of_returns returns, fun m' returns => ?_,
    fun fault m' returns => ?_, fun outcomes m' session => outputs_of_runs session⟩
  · obtain ⟨fuel, ran⟩ := returns
    cases runToOutput_surfaces ran with
    | halted halted outputs =>
      refine ⟨outputs, halted, fun already => ?_⟩
      cases m.steady_runToOutput.unique ⟨fuel, ran⟩ ⟨0, runToOutput_halted already 0⟩
      rfl
  · obtain ⟨fuel, ran⟩ := returns
    cases runToOutput_surfaces ran with
    | faulted faulted =>
      refine ⟨faulted, fun already => ?_⟩
      cases m.steady_runToOutput.unique ⟨fuel, ran⟩ ⟨1, runToOutput_faulted already 0⟩
      rfl

/-- A program with two outputs, the second after a step without one. -/
theorem surfaces_two_outputs :
    ∃ m₁ m₂ m₃ : Machine,
      (load [104, 1, 1101, 0, 0, 0, 104, 2, 99] none).runToOutput 1 = some (.ok (.output 1), m₁) ∧
      m₁.Surfaced 2 m₂ ∧ m₃.outputs = m₂.outputs ∧ m₃.status = .halted ∧
      m₃.outputs.toList = m₁.outputs.toList ++ [2] := by
  obtain ⟨m₁, first⟩ : ∃ m₁, (load [104, 1, 1101, 0, 0, 0, 104, 2, 99] none).runToOutput 1 =
      some (.ok (.output 1), m₁) := ⟨_, rfl⟩
  have second : m₁.runToOutput 2 = some (.ok (.output 2), m₁.step.2.step.2) := by
    cases first
    rfl
  have third : m₁.step.2.step.2.runToOutput 1 = some (.ok .halted, m₁.step.2.step.2.step.2) := by
    cases first
    rfl
  obtain ⟨surfaced, -, -, inRow⟩ := surfaces_each_output m₁
  obtain ⟨-, halted, -⟩ := surfaces_each_output m₁.step.2.step.2
  obtain ⟨same, stopped, -⟩ := halted _ ⟨1, third⟩
  have session : m₁.Session [.runToOutput, .runToOutput]
      [.surfaced (.ok (.output 2)), .surfaced (.ok .halted)] m₁.step.2.step.2.step.2 :=
    .cons ⟨2, by rw [perform, second]; rfl⟩ (.cons ⟨1, by rw [perform, third]; rfl⟩ (.nil _))
  exact ⟨m₁, _, _, first, surfaced _ _ ⟨2, second⟩, same, stopped,
    inRow [.output 2, .halted] _ session⟩

end Machine
end IntcodeMachine
