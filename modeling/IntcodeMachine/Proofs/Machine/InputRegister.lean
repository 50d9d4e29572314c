import IntcodeMachine.Proofs.Machine.Running

/-! # Who reads the input register

The input register is looked at by input instructions and by nothing else: no other
instruction reads it, no fault depends on it, and no run does.  Two machines that
are equal in everything except this register (`SameButInput`) therefore go the same
way for as long as they come to no input instruction (`same_until_input`), whatever
the programs write over themselves on the way.

To empty the register first or last makes no difference to a step that is not one
of an input instruction (`step_clearInput`).  That this says it all is because two
machines are equal but for their registers exactly if they are equal once both are
emptied.
-/
namespace IntcodeMachine
namespace Machine

/-- **The machines are equal in everything except the input register.** -/
structure SameButInput (m n : Machine) : Prop where
  memory : m.memory = n.memory
  outputs : m.outputs = n.outputs
  counter : m.counter = n.counter
  base : m.base = n.base
  status : m.status = n.status
  steps : m.steps = n.steps
  last : m.last = n.last

/-- The next step is one of an input instruction. -/
def ReadsInput (m : Machine) : Prop :=
  m.status = .running ∧ ∃ i, m.fetch = .ok i ∧ i.opcode = .input

/-- The machine after a number of steps. -/
def afterSteps (m : Machine) : Nat → Machine
  | 0 => m
  | k + 1 => m.step.2.afterSteps k

variable {m n m' n' : Machine} {i : Instruction} {k : Nat}

theorem sameButInput_iff : m.SameButInput n ↔ m.clearInput = n.clearInput := by
  obtain ⟨memory, ⟨input, outputs⟩, counter, base, status, steps, last⟩ := m
  obtain ⟨memory', ⟨input', outputs'⟩, counter', base', status', steps', last'⟩ := n
  constructor
  · rintro ⟨rfl, rfl, rfl, rfl, rfl, rfl, rfl⟩
    rfl
  · intro h
    simp only [clearInput, Channel.clearInput, mk.injEq, Channel.mk.injEq, true_and] at h
    obtain ⟨h₁, h₂, h₃, h₄, h₅, h₆, h₇⟩ := h
    exact ⟨h₁, h₂, h₃, h₄, h₅, h₆, h₇⟩

/-! ## Steps -/

/-- Only the effect of an input instruction depends on the register. -/
theorem effect_clearInput (other : i.opcode ≠ .input) :
    m.clearInput.effect i = m.effect i := by
  cases o : i.opcode with
  | input => contradiction
  | halt => simp only [effect, o]
  | _ =>
    simp only [effect, o]
    rfl

theorem apply_clearInput (e : Effect) : m.clearInput.apply e = (m.apply e).clearInput := by
  cases e <;> rfl

theorem advance_clearInput :
    m.clearInput.advance i = ((m.advance i).1, (m.advance i).2.clearInput) := by
  unfold advance
  have following : m.clearInput.following i = m.following i := rfl
  rw [following]
  split
  · rfl
  · split <;> rfl

theorem execute_clearInput (other : ∀ i, m.fetch = .ok i → i.opcode ≠ .input) :
    m.clearInput.execute = (m.execute.1, m.execute.2.clearInput) := by
  have fetch : m.clearInput.fetch = m.fetch := rfl
  unfold execute
  rw [fetch]
  cases fetched : m.fetch with
  | error fault => rfl
  | ok i =>
    simp only [effect_clearInput (other i fetched)]
    cases m.effect i with
    | error fault => rfl
    | ok e =>
      simp only [apply_clearInput]
      exact advance_clearInput

/-- **A step that is not one of an input instruction does not care for the register.** -/
theorem step_clearInput (silent : ¬ m.ReadsInput) :
    m.clearInput.step = (m.step.1, m.step.2.clearInput) := by
  by_cases running : m.status = .running
  · have other : ∀ i, m.fetch = .ok i → i.opcode ≠ .input :=
      fun i fetched o => silent ⟨running, i, fetched, o⟩
    have status : m.clearInput.status = .running := running
    simp only [step, running, status, execute_clearInput other]
    cases m.execute with
    | mk result m' => cases result <;> rfl
  · rw [step_of_not_running m running]
    exact step_of_not_running m.clearInput running

theorem readsInput_clearInput : m.clearInput.ReadsInput ↔ m.ReadsInput := Iff.rfl

theorem not_readsInput (fetched : m.fetch = .ok i) (other : i.opcode ≠ .input) :
    ¬ m.ReadsInput := by
  rintro ⟨-, j, fetched', o⟩
  obtain rfl := Except.ok.inj (fetched.symm.trans fetched')
  exact other o

/-- The conditions on the steps after the first one are those on the machine after it. -/
theorem silent_step (silent : ∀ j < k + 1, ¬ (m.afterSteps j).ReadsInput) :
    ¬ m.ReadsInput ∧ ∀ j < k, ¬ (m.step.2.afterSteps j).ReadsInput :=
  ⟨silent 0 (Nat.succ_pos k), fun j h => silent (j + 1) (Nat.succ_lt_succ h)⟩

namespace SameButInput

theorem readsInput_iff (same : m.SameButInput n) : m.ReadsInput ↔ n.ReadsInput := by
  rw [← readsInput_clearInput, sameButInput_iff.mp same, readsInput_clearInput]

theorem step (same : m.SameButInput n) (silent : ¬ m.ReadsInput) :
    m.step.1 = n.step.1 ∧ m.step.2.SameButInput n.step.2 := by
  have steps : (m.step.1, m.step.2.clearInput) = (n.step.1, n.step.2.clearInput) := by
    rw [← step_clearInput silent, ← step_clearInput (mt same.readsInput_iff.mpr silent),
      sameButInput_iff.mp same]
  exact ⟨(Prod.mk.inj steps).1, sameButInput_iff.mpr (Prod.mk.inj steps).2⟩

/-! ## Runs -/

theorem afterSteps (same : m.SameButInput n)
    (silent : ∀ j < k, ¬ (m.afterSteps j).ReadsInput) :
    (m.afterSteps k).SameButInput (n.afterSteps k) := by
  induction k generalizing m n with
  | zero => exact same
  | succ k ih =>
    obtain ⟨first, rest⟩ := silent_step silent
    exact ih (same.step first).2 rest

theorem runSteps (same : m.SameButInput n)
    (silent : ∀ j < k, ¬ (m.afterSteps j).ReadsInput) {result : Except Fault Unit}
    (ran : m.runSteps k = some (result, m')) :
    ∃ n', n.runSteps k = some (result, n') ∧ m'.SameButInput n' := by
  induction k generalizing m n with
  | zero =>
    by_cases running : m.status = .running
    · rw [runSteps_zero running] at ran
      cases ran
    · rw [runSteps_of_not_running running] at ran
      cases ran
      exact ⟨n, runSteps_of_not_running (same.status ▸ running) 0, same⟩
  | succ k ih =>
    by_cases running : m.status = .running
    · obtain ⟨first, rest⟩ := silent_step silent
      obtain ⟨answer, after⟩ := same.step first
      have n_running : n.status = .running := same.status ▸ running
      rw [runSteps_succ running] at ran
      cases hm : m.step with
      | mk result m₁ =>
        cases hn : n.step with
        | mk result' n₁ =>
          rw [hm, hn] at answer after
          obtain rfl : result = result' := answer
          rw [hm] at ran rest
          cases result with
          | ok i =>
            obtain ⟨n', ran', same'⟩ := ih after rest ran
            exact ⟨n', by rw [runSteps_succ n_running, hn]; exact ran', same'⟩
          | error fault =>
            cases ran
            exact ⟨n₁, by rw [runSteps_succ n_running, hn], after⟩
    · rw [runSteps_of_not_running running] at ran
      cases ran
      exact ⟨n, runSteps_of_not_running (same.status ▸ running) _, same⟩

theorem run (same : m.SameButInput n) (silent : ∀ j < k, ¬ (m.afterSteps j).ReadsInput)
    {result : Except Fault UInt64} (ran : m.run k = some (result, m')) :
    ∃ n', n.run k = some (result, n') ∧ m'.SameButInput n' := by
  unfold Machine.run at ran ⊢
  rw [← same.status, ← same.steps]
  split at ran
  · rename_i faulted
    cases ran
    exact ⟨n, rfl, same⟩
  · obtain ⟨⟨ended, m₁⟩, steps, answer⟩ := Option.map_eq_some_iff.mp ran
    obtain ⟨n₁, steps', same'⟩ := same.runSteps silent steps
    rw [steps']
    cases ended with
    | ok _ =>
      cases answer
      exact ⟨n₁, by simp [same'.steps], same'⟩
    | error fault =>
      cases answer
      exact ⟨n₁, rfl, same'⟩

end SameButInput

/-! ## The statement -/

/-- **The input register has no influence before an input instruction is reached.**  Of two machines
that are equal but for it, none of the first `k` steps of the one being a step of an input
instruction, these steps have the same results on both, and leave machines that are equal but for
the register.  So does a run to the end that needs no more than these steps, with its answer. -/
theorem same_until_input (same : m.SameButInput n)
    (silent : ∀ j < k, ¬ (m.afterSteps j).ReadsInput) :
    (∀ j < k, (m.afterSteps j).step.1 = (n.afterSteps j).step.1 ∧
      (m.afterSteps (j + 1)).SameButInput (n.afterSteps (j + 1))) ∧
    ∀ result m', m.run k = some (result, m') →
      ∃ n', n.run k = some (result, n') ∧ m'.SameButInput n' := by
  refine ⟨fun j hj => ⟨?_, ?_⟩, fun result m' ran => same.run silent ran⟩
  · have before := same.afterSteps fun l hl => silent l (Nat.lt_trans hl hj)
    exact (before.step (silent j hj)).1
  · exact same.afterSteps fun l hl => silent l (Nat.lt_of_lt_of_le hl hj)

/-- A program that overwrites a cell of its own with an output instruction, run with an empty
register and with 5 in it. -/
theorem overwriting_same_until_input :
    ∃ m' n', (load [1101, 100, 4, 4, 0, 6, 99] none).run 3 = some (.ok 3, m') ∧
      (load [1101, 100, 4, 4, 0, 6, 99] (some 5)).run 3 = some (.ok 3, n') ∧
      m'.SameButInput n' := by
  have same : (load [1101, 100, 4, 4, 0, 6, 99] none).SameButInput
      (load [1101, 100, 4, 4, 0, 6, 99] (some 5)) := ⟨rfl, rfl, rfl, rfl, rfl, rfl, rfl⟩
  have silent : ∀ j < 3, ¬ ((load [1101, 100, 4, 4, 0, 6, 99] none).afterSteps j).ReadsInput := by
    intro j hj
    have : j = 0 ∨ j = 1 ∨ j = 2 := by omega
    rcases this with rfl | rfl | rfl
    · exact not_readsInput (i := ⟨.add, 1, 1, 0⟩) rfl (by decide)
    · exact not_readsInput (i := ⟨.output, 1, 0, 0⟩) rfl (by decide)
    · exact not_readsInput (i := ⟨.halt, 0, 0, 0⟩) rfl (by decide)
  have ran : (load [1101, 100, 4, 4, 0, 6, 99] none).run 3 =
      some (.ok 3, (load [1101, 100, 4, 4, 0, 6, 99] none).afterSteps 3) := rfl
  obtain ⟨-, runs⟩ := same_until_input same silent
  obtain ⟨n', ran', same'⟩ := runs _ _ ran
  exact ⟨_, n', ran, ran', same'⟩

end Machine
end IntcodeMachine
