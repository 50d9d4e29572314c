import IntcodeMachine.Proofs.Machine.Failing
import IntcodeMachine.Proofs.Memory.TotalMap

/-! # The life of a machine

What holds of a machine at any time after it was loaded, whatever is done with it.
Its outputs only grow; its registers tell how it has lived (`Lived`): it has halted
if and only if the last instruction was the one that halts, there is a last
instruction once there have been steps, and each step has had one output at most.

A session consists of executed instructions, failed steps and changes from outside.
A property that these keep lasts through a run, an operation and a session, by one
induction each (`Lasting.runSteps` and so on).  The number of executed instructions
is kept beside the machine (`Tally`), because the machine counts them modulo 2^64
only.

A machine that has stopped is left alone by every operation but for its register
and its memory, so that its whole future can be written down
(`session_stopped_iff`).
-/
namespace IntcodeMachine
namespace Machine

variable {m m' m'' : Machine} {i : Instruction} {fault : Fault} {n fuel : Nat} {o : Operation}
  {operations : List Operation} {answers : List Answer}

/-! ## The number of instructions -/

/-- How many of the next steps execute an instruction. None is taken after a failure or after a
machine that is good enough. -/
def executedUntil (enough : Machine → Bool) : Nat → Machine → Nat
  | 0, _ => 0
  | fuel + 1, m =>
    match m.step with
    | (.ok _, m') => if enough m' then 1 else executedUntil enough fuel m' + 1
    | (.error _, _) => 0

theorem executedUntil_ok {enough : Machine → Bool} (step : m.step = (.ok i, m')) :
    m.executedUntil enough (fuel + 1) =
      if enough m' then 1 else m'.executedUntil enough fuel + 1 := by
  rw [executedUntil, step]

theorem executedUntil_error {enough : Machine → Bool} (step : m.step = (.error fault, m')) :
    m.executedUntil enough (fuel + 1) = 0 := by
  rw [executedUntil, step]

/-- The number of instructions that an operation executes, if `fuel` steps are enough for it. -/
def executed (m : Machine) (o : Operation) (fuel : Nat) : Nat :=
  match o with
  | .step => executedUntil (fun _ => false) 1 m
  | .run => executedUntil (fun _ => false) fuel m
  | .runToOutput => executedUntil (fun m' => m.outputs.size < m'.outputs.size) fuel m
  | _ => 0

/-- **The operations, one after the other, execute this number of instructions** and leave this
machine. -/
inductive Tally : Machine → List Operation → Nat → Machine → Prop
  | nil (m : Machine) : Tally m [] 0 m
  | cons {m m' m'' : Machine} {o : Operation} {answer : Answer} {operations : List Operation}
      {fuel n : Nat} (first : m.perform o fuel = some (answer, m'))
      (rest : Tally m' operations n m'') : Tally m (o :: operations) (m.executed o fuel + n) m''

theorem Session.tally (session : m.Session operations answers m') :
    ∃ n, m.Tally operations n m' := by
  induction session with
  | nil m => exact ⟨0, .nil m⟩
  | cons first _ ih =>
    obtain ⟨fuel, first⟩ := first
    obtain ⟨n, rest⟩ := ih
    exact ⟨_, .cons first rest⟩

/-! ## What lasts -/

/-- **What is kept by whatever can happen to a machine.** The number is that of the instructions
executed so far. -/
structure Lasting (P : Nat → Machine → Prop) : Prop where
  executes : ∀ {n m m' i}, P n m → m.step = (.ok i, m') → P (n + 1) m'
  fails : ∀ {n m m' fault}, P n m → m.step = (.error fault, m') → P n m'
  setInput : ∀ {n m} value, P n m → P n (m.setInput value)
  clearInput : ∀ {n m}, P n m → P n m.clearInput
  write : ∀ {n m m'} address value, P n m → m.poke address value = .ok m' → P n m'

namespace Lasting

variable {P : Nat → Machine → Prop}

theorem step (lasting : Lasting P) (h : P n m) :
    P (n + m.executedUntil (fun _ => false) 1) m.step.2 := by
  cases s : m.step with
  | mk result m' =>
    cases result with
    | ok i =>
      rw [executedUntil_ok s]
      exact lasting.executes h s
    | error fault =>
      rw [executedUntil_error s]
      exact lasting.fails h s

theorem runSteps (lasting : Lasting P) {r : Result Unit} (h : P n m)
    (ran : m.runSteps fuel = some r) : P (n + m.executedUntil (fun _ => false) fuel) r.2 := by
  induction fuel generalizing n m with
  | zero =>
    by_cases running : m.status = .running
    · rw [runSteps_zero running] at ran
      cases ran
    · rw [runSteps_of_not_running running] at ran
      cases ran
      exact h
  | succ fuel ih =>
    by_cases running : m.status = .running
    · rw [runSteps_succ running] at ran
      split at ran
      · rename_i s
        rw [executedUntil_ok s, if_neg Bool.false_ne_true, ← Nat.add_assoc, Nat.add_right_comm]
        exact ih (lasting.executes h s) ran
      · rename_i s
        cases ran
        rw [executedUntil_error s]
        exact lasting.fails h s
    · rw [runSteps_of_not_running running] at ran
      cases ran
      rw [executedUntil_error (m.step_of_not_running running)]
      exact h

theorem stepsToOutput (lasting : Lasting P) {seen : Nat} {r : Result Outcome} (h : P n m)
    (ran : m.stepsToOutput seen fuel = some r) :
    P (n + m.executedUntil (fun m' => seen < m'.outputs.size) fuel) r.2 := by
  induction fuel generalizing n m with
  | zero =>
    by_cases halted : m.status = .halted
    · rw [stepsToOutput_halted halted] at ran
      cases ran
      exact h
    · rw [stepsToOutput_zero halted] at ran
      cases ran
  | succ fuel ih =>
    by_cases halted : m.status = .halted
    · rw [stepsToOutput_halted halted] at ran
      cases ran
      rw [executedUntil_error (m.step_of_not_running (by rw [halted]; exact Status.noConfusion))]
      exact h
    · rw [stepsToOutput_succ halted] at ran
      split at ran
      · rename_i i m' s
        rw [executedUntil_ok s]
        split at ran
        · rename_i value found
          cases ran
          obtain ⟨more, -⟩ := Array.getElem?_eq_some_iff.mp found
          rw [if_pos (decide_eq_true more)]
          exact lasting.executes h s
        · rename_i none
          have fewer : m'.outputs.size ≤ seen := Array.getElem?_eq_none_iff.mp none
          rw [if_neg (by simpa using fewer), ← Nat.add_assoc, Nat.add_right_comm]
          exact ih (lasting.executes h s) ran
      · rename_i s
        cases ran
        rw [executedUntil_error s]
        exact lasting.fails h s

theorem run (lasting : Lasting P) {r : Result UInt64} (h : P n m) (ran : m.run fuel = some r) :
    P (n + m.executedUntil (fun _ => false) fuel) r.2 := by
  unfold Machine.run at ran
  split at ran
  · rename_i faulted
    cases ran
    have stopped : m.runSteps fuel = some (.ok (), m) :=
      runSteps_of_not_running (by rw [faulted]; exact Status.noConfusion) fuel
    exact lasting.runSteps h stopped
  · obtain ⟨⟨result, m'⟩, steps, answer⟩ := Option.map_eq_some_iff.mp ran
    have := lasting.runSteps h steps
    cases result <;> cases answer <;> exact this

/-- An operation keeps what lasts. -/
theorem perform (lasting : Lasting P) {answer : Answer} (h : P n m)
    (performs : m.perform o fuel = some (answer, m')) : P (n + m.executed o fuel) m' := by
  cases o with
  | step =>
    cases performs
    exact lasting.step h
  | run =>
    obtain ⟨r, ran, e⟩ := Option.map_eq_some_iff.mp performs
    cases e
    exact lasting.run h ran
  | runToOutput =>
    obtain ⟨r, ran, e⟩ := Option.map_eq_some_iff.mp performs
    cases e
    exact lasting.stepsToOutput h ran
  | setInput value =>
    cases performs
    exact lasting.setInput value h
  | clearInput =>
    cases performs
    exact lasting.clearInput h
  | write address value =>
    cases written : m.poke address value with
    | ok m₁ =>
      simp only [Machine.perform, written] at performs
      cases performs
      exact lasting.write address value h written
    | error e =>
      simp only [Machine.perform, written] at performs
      cases performs
      exact h

/-- **A session keeps what lasts.** -/
theorem tally (lasting : Lasting P) {k : Nat} (h : P n m) (tally : m.Tally operations k m') :
    P (n + k) m' := by
  induction tally generalizing n with
  | nil => exact h
  | cons first _ ih =>
    have := ih (lasting.perform h first)
    rwa [Nat.add_assoc] at this

end Lasting

theorem eq_of_poke {address value : Cell} (h : m.poke address value = .ok m') :
    ∃ memory, m' = { m with memory } := by
  unfold poke at h
  cases hs : Memory.addressOf address with
  | error e =>
    rw [hs] at h
    cases h
  | ok a =>
    rw [hs] at h
    cases h
    exact ⟨_, rfl⟩

/-! ## Outputs -/

theorem lasting_outputs (before : Array Cell) :
    Lasting fun _ m => before.toList <+: m.outputs.toList where
  executes h step := by
    rcases outputs_of_step_ok step with ⟨value, outputs, -⟩ | ⟨outputs, -⟩
    · rw [outputs, Array.toList_push]
      exact h.trans (List.prefix_append _ _)
    · rwa [outputs]
  fails h step := by
    rcases (fails_of_step_error step).outputs with outputs | ⟨-, value, outputs⟩
    · rwa [outputs]
    · rw [outputs, Array.toList_push]
      exact h.trans (List.prefix_append _ _)
  setInput _ h := h
  clearInput h := h
  write _ _ h written := by
    obtain ⟨memory, rfl⟩ := eq_of_poke written
    exact h

/-- **Outputs are never taken back.** -/
theorem Session.outputs_prefix (session : m.Session operations answers m') :
    m.outputs.toList <+: m'.outputs.toList := by
  obtain ⟨n, tally⟩ := session.tally
  exact (lasting_outputs m.outputs).tally (n := 0) (List.prefix_refl _) tally

/-! ## Registers -/

/-- **What the registers of a machine tell** after a number of executed instructions. -/
structure Lived (n : Nat) (m : Machine) : Prop where
  steps : m.steps = UInt64.ofNat n
  last : m.last = none ↔ n = 0
  halted : m.status = .halted ↔ ∃ i, m.last = some i ∧ i.opcode = .halt
  outputs : m.status ≠ .faulted → m.outputs.size ≤ n

theorem lived_load (image : List Cell) (input : Option Cell) : Lived 0 (load image input) where
  steps := rfl
  last := iff_of_true rfl rfl
  halted := iff_of_false (fun h => by cases h) fun ⟨_, h, _⟩ => by cases h
  outputs _ := Nat.le_refl 0

/-- An executed instruction is the last one, and halts the machine if that is its task. -/
theorem Lived.executes (lived : Lived n m) (step : m.step = (.ok i, m')) : Lived (n + 1) m' := by
  have running := running_of_step_ok step
  have before := lived.outputs (by rw [running]; exact Status.noConfusion)
  have outputs : m'.outputs.size ≤ n + 1 := by
    rcases outputs_of_step_ok step with ⟨value, outputs, -⟩ | ⟨outputs, -⟩
    · rw [outputs, Array.size_push]
      omega
    · rw [outputs]
      omega
  have stepping := m.step_stepping running
  rw [step] at stepping
  cases stepping with
  | @executed _ e c fetched resolved lands =>
    refine ⟨?_, iff_of_false (fun h => by cases h) (by omega), ?_, fun _ => outputs⟩
    · show m.steps + 1 = _
      rw [lived.steps, UInt64.ofNat_add]
      rfl
    · show (m.apply e).status = .halted ↔ _
      rw [status_apply_of_effect resolved, running]
      by_cases halts : i.opcode = .halt
      · exact iff_of_true (if_pos halts) ⟨i, rfl, halts⟩
      · rw [if_neg halts]
        refine iff_of_false (fun h => by cases h) ?_
        rintro ⟨j, same, halt⟩
        cases same
        exact halts halt

/-- A failed step executes nothing, and a running machine has not been halted. -/
theorem Lived.fails (lived : Lived n m) (step : m.step = (.error fault, m')) : Lived n m' := by
  by_cases running : m.status = .running
  · have fails := fails_of_step_error step
    have faulted : m'.status = .faulted := by rw [fails.status, if_pos running]
    refine ⟨fails.steps ▸ lived.steps, fails.last ▸ lived.last, ?_, fun h => absurd faulted h⟩
    rw [faulted, fails.last, ← lived.halted, running]
    exact iff_of_false (fun h => by cases h) fun h => by cases h
  · rw [m.step_of_not_running running] at step
    cases step
    exact lived

theorem lasting_lived : Lasting Lived where
  executes lived step := lived.executes step
  fails lived step := lived.fails step
  setInput _ lived := ⟨lived.steps, lived.last, lived.halted, lived.outputs⟩
  clearInput lived := ⟨lived.steps, lived.last, lived.halted, lived.outputs⟩
  write _ _ lived written := by
    obtain ⟨memory, rfl⟩ := eq_of_poke written
    exact ⟨lived.steps, lived.last, lived.halted, lived.outputs⟩

/-! ## Machines that have stopped -/

/-- What a machine with this status answers if it is not running. -/
def stoppedAnswer (status : Status) : Operation → Answer
  | .step => .stepped (.error (.notRunning status))
  | .run => .ran (if status = .halted then .ok 0 else .error (.notRunning status))
  | .runToOutput =>
    .surfaced (if status = .halted then .ok .halted else .error (.notRunning status))
  | .setInput _ => .done
  | .clearInput => .done
  | .write address _ => if address < 0 then .refused ⟨address⟩ else .done

/-- The write that an operation is. -/
def Operation.written? : Operation → Option (Cell × Cell)
  | .write address value => some (address, value)
  | _ => none

/-- What an operation makes of the input register from outside. -/
def Operation.register (o : Operation) (input : Option Cell) : Option Cell :=
  match o with
  | .setInput value => some value
  | .clearInput => none
  | _ => input

/-- The machine after operations that change nothing but its input register and its memory, and
these only from outside. -/
def disturbed (m : Machine) (operations : List Operation) : Machine :=
  { m with
    memory := m.memory.afterWrites (operations.filterMap Operation.written?)
    channel := { m.channel with
      input := operations.foldl (fun input o => o.register input) m.channel.input } }

theorem disturbed_cons (m : Machine) (o : Operation) (operations : List Operation) :
    (m.disturbed [o]).disturbed operations = m.disturbed (o :: operations) := by
  cases o <;> rfl

theorem disturbed_write (m : Machine) (address value : Cell) :
    m.disturbed [.write address value] = { m with memory := (m.memory.put address value).2 } := rfl

theorem run_stopped (stopped : m.status ≠ .running) :
    m.run 0 = some (if m.status = .halted then .ok 0 else .error (.notRunning m.status), m) := by
  cases h : m.status with
  | running => contradiction
  | halted =>
    simp only [run, h, runSteps_of_not_running stopped, Option.map_some, UInt64.sub_self]
    rfl
  | faulted =>
    simp only [run, h]
    rfl

theorem runToOutput_stopped (stopped : m.status ≠ .running) :
    m.runToOutput 1 =
      some (if m.status = .halted then .ok .halted else .error (.notRunning m.status), m) := by
  cases h : m.status with
  | running => contradiction
  | halted => exact runToOutput_halted h 1
  | faulted => exact runToOutput_faulted h 0

/-- **What an operation does to a machine that has stopped.** -/
theorem returns_perform_stopped (stopped : m.status ≠ .running) (o : Operation) :
    Returns (m.perform o) (stoppedAnswer m.status o, m.disturbed [o]) := by
  cases o with
  | step =>
    refine ⟨0, ?_⟩
    rw [perform, m.step_of_not_running stopped]
    rfl
  | run =>
    refine ⟨0, ?_⟩
    rw [perform, run_stopped stopped]
    rfl
  | runToOutput =>
    refine ⟨1, ?_⟩
    rw [perform, runToOutput_stopped stopped]
    rfl
  | setInput value => exact ⟨0, rfl⟩
  | clearInput => exact ⟨0, rfl⟩
  | write address value =>
    refine ⟨0, ?_⟩
    rw [disturbed_write]
    by_cases negative : address < 0
    · rw [Memory.put_negative negative, perform, poke, Memory.addressOf_negative negative,
        stoppedAnswer, if_pos negative]
      rfl
    · rw [Memory.put_nonneg (Int64.not_lt.mp negative), perform, poke,
        Memory.addressOf_nonneg (Int64.not_lt.mp negative), stoppedAnswer, if_neg negative]
      rfl

theorem session_stopped (stopped : m.status ≠ .running) (operations : List Operation) :
    m.Session operations (operations.map (stoppedAnswer m.status)) (m.disturbed operations) := by
  induction operations generalizing m with
  | nil => exact .nil m
  | cons o operations ih =>
    rw [← disturbed_cons]
    exact .cons (returns_perform_stopped stopped o) (ih stopped)

/-- **The future of a machine that has stopped**: every session with it returns, and its answers and
what it leaves are known beforehand. -/
theorem session_stopped_iff (stopped : m.status ≠ .running) :
    m.Session operations answers m' ↔
      answers = operations.map (stoppedAnswer m.status) ∧ m' = m.disturbed operations := by
  constructor
  · intro session
    exact session.unique (session_stopped stopped operations)
  · rintro ⟨rfl, rfl⟩
    exact session_stopped stopped operations

/-! ## The statement -/

/-- **The life of a machine** up to a moment, given what has been done with it since it was loaded,
and what this moment means for the time after it. -/
structure LifeCycle (start : Machine) (operations : List Operation) (m : Machine) : Prop where
  /-- The outputs are the first ones of those at any later time. -/
  outputs_grow : ∀ later answers m', m.Session later answers m' →
    m.outputs.toList <+: m'.outputs.toList
  halted_iff : m.status = .halted ↔ ∃ i, m.last = some i ∧ i.opcode = .halt
  /-- A number of instructions has been executed. -/
  tallied : ∃ n, start.Tally operations n m
  /-- It is the number of steps, as far as 64 bits count them, -/
  steps_eq : ∀ n, start.Tally operations n m → n < UInt64.size → m.steps.toNat = n
  /-- which then tells whether there is a last instruction. -/
  last_eq_none_iff : ∀ n, start.Tally operations n m → n < UInt64.size →
    (m.last = none ↔ m.steps = 0)
  /-- There are not more outputs than instructions. -/
  outputs_le : ∀ n, start.Tally operations n m → m.status ≠ .faulted → m.outputs.size ≤ n
  /-- Once it has stopped, the machine answers accordingly, and only its memory and its input
  register change, if they are changed from outside. -/
  stays : m.status ≠ .running → ∀ later answers m', m.Session later answers m' ↔
    answers = later.map (stoppedAnswer m.status) ∧ m' = m.disturbed later

/-- **Every machine has the life of a machine**, whatever its program and whatever is done with
it. -/
theorem session_lifeCycle {image : List Cell} {input : Option Cell} {operations : List Operation}
    {answers : List Answer} {m : Machine}
    (session : (load image input).Session operations answers m) :
    LifeCycle (load image input) operations m := by
  have lived : ∀ n, (load image input).Tally operations n m → Lived n m := by
    intro n tally
    have := lasting_lived.tally (lived_load image input) tally
    rwa [Nat.zero_add] at this
  have steps : ∀ n, (load image input).Tally operations n m → n < UInt64.size →
      m.steps.toNat = n := by
    intro n tally small
    rw [(lived n tally).steps]
    exact UInt64.toNat_ofNat_of_lt' small
  obtain ⟨n, tally⟩ := session.tally
  exact
    { outputs_grow := fun _ _ _ later => later.outputs_prefix
      halted_iff := (lived n tally).halted
      tallied := ⟨n, tally⟩
      steps_eq := steps
      last_eq_none_iff := fun n tally small => by
        rw [(lived n tally).last, ← UInt64.toNat_inj, steps n tally small]
        rfl
      outputs_le := fun n tally => (lived n tally).outputs
      stays := fun stopped _ _ _ => session_stopped_iff stopped }

/-- A program that outputs 7, run to its output and to its end, and the machine after it has
halted. -/
theorem life_of_one_output :
    ∃ m, (load [104, 7, 99] none).Session [.runToOutput, .run]
        [.surfaced (.ok (.output 7)), .ran (.ok 1)] m ∧
      m.status = .halted ∧ (load [104, 7, 99] none).Tally [.runToOutput, .run] 2 m ∧
      m.steps.toNat = 2 ∧ (m.last = none ↔ m.steps = 0) ∧ m.outputs.size ≤ 2 ∧
      m.Session [.step, .run, .write (-1) 4, .setInput 3, .write 0 5, .runToOutput]
        [.stepped (.error (.notRunning .halted)), .ran (.ok 0), .refused ⟨-1⟩, .done, .done,
          .surfaced (.ok .halted)]
        (m.disturbed [.write (-1) 4, .setInput 3, .write 0 5]) := by
  have session : (load [104, 7, 99] none).Session [.runToOutput, .run]
      [.surfaced (.ok (.output 7)), .ran (.ok 1)] (load [104, 7, 99] none).step.2.step.2 :=
    .cons ⟨1, rfl⟩ (.cons ⟨1, rfl⟩ (.nil _))
  have first : (load [104, 7, 99] none).perform .runToOutput 1 =
      some (.surfaced (.ok (.output 7)), (load [104, 7, 99] none).step.2) := rfl
  have second : (load [104, 7, 99] none).step.2.perform .run 1 =
      some (.ran (.ok 1), (load [104, 7, 99] none).step.2.step.2) := rfl
  have tally := Tally.cons first (.cons second (.nil _))
  have life := session_lifeCycle session
  refine ⟨_, session, rfl, tally, life.steps_eq 2 tally (by decide),
    life.last_eq_none_iff 2 tally (by decide), life.outputs_le 2 tally (by decide), ?_⟩
  exact (life.stays (by decide) _ _ _).mpr ⟨rfl, rfl⟩

end Machine
end IntcodeMachine
