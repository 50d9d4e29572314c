import IntcodeMachine.Proofs.Machine.Parameters

/-! # What one step can be

A step of a running machine ends in one of three ways (`Stepping`): the instruction
is executed; nothing happens but the fault; or the effect has happened and only the
move past the instruction fails.  Everything that later modules say about a step is
read off this relation, and none of them opens `step`.

What an effect does to the registers is said field by field (`counter_apply` and
so on), and which opcode can have which effect by `effect_causes`.
-/
namespace IntcodeMachine

/-! ## Effects -/

/-- The outputs of an effect. -/
def Effect.emitted : Effect → List Cell
  | .emit value => [value]
  | _ => []

/-- The effects that an opcode can have. -/
def Opcode.Causes (o : Opcode) (e : Effect) : Prop :=
  match o with
  | .output => ∃ value, e = .emit value
  | .adjustBase => ∃ base, e = .rebase base
  | .jumpIfTrue | .jumpIfFalse => ∃ target, e = .jump target
  | .halt => e = .halt
  | _ => ∃ address value, e = .store address value

theorem Opcode.Causes.eq_halt_iff {o : Opcode} {e : Effect} (h : o.Causes e) :
    o = .halt ↔ e = .halt := by
  cases o with
  | halt => exact ⟨fun _ => h, fun _ => rfl⟩
  | output | adjustBase | jumpIfTrue | jumpIfFalse =>
    obtain ⟨x, rfl⟩ := h
    simp
  | _ =>
    obtain ⟨address, value, rfl⟩ := h
    simp

namespace Machine
variable (m : Machine) (e : Effect)

@[simp] theorem toList_outputs_apply :
    (m.apply e).outputs.toList = m.outputs.toList ++ e.emitted := by
  cases e <;> simp [apply, outputs, Effect.emitted]

@[simp] theorem input_apply : (m.apply e).channel.input = m.channel.input := by cases e <;> rfl

@[simp] theorem steps_apply : (m.apply e).steps = m.steps := by cases e <;> rfl

@[simp] theorem last_apply : (m.apply e).last = m.last := by cases e <;> rfl

theorem status_apply (h : e ≠ .halt) : (m.apply e).status = m.status := by
  cases e <;> first | rfl | contradiction

theorem counter_apply (h : ∀ target, e ≠ .jump target) : (m.apply e).counter = m.counter := by
  cases e with
  | jump target => exact absurd rfl (h target)
  | _ => rfl

variable {m} {e} {i : Instruction}

theorem combine_eq_ok {operation : Cell → Cell → Option Cell} :
    m.combine i operation = .ok e ↔
      ∃ a b value target, m.source i 0 = .ok a ∧ m.source i 1 = .ok b ∧
        operation a b = some value ∧ m.target i 2 = .ok target ∧ e = .store target value := by
  simp only [combine, bind_eq_ok, pure_eq_ok, Fault.orOverflow_eq_ok]
  constructor
  · rintro ⟨a, ha, b, hb, value, hv, target, ht, rfl⟩
    exact ⟨a, b, value, target, ha, hb, hv, ht, rfl⟩
  · rintro ⟨a, b, value, target, ha, hb, hv, ht, rfl⟩
    exact ⟨a, ha, b, hb, value, hv, target, ht, rfl⟩

theorem branch_eq_ok {test : Cell → Bool} :
    m.branch i test = .ok e ↔
      ∃ condition destination target, m.source i 0 = .ok condition ∧
        m.source i 1 = .ok destination ∧
        (if test condition then target = destination else m.following i = .ok target) ∧
        e = .jump target := by
  simp only [branch, bind_eq_ok]
  constructor
  · rintro ⟨condition, hc, destination, hd, h⟩
    cases ht : test condition with
    | true =>
      rw [ht] at h
      obtain rfl := pure_eq_ok.mp h
      exact ⟨condition, destination, destination, hc, hd, by rw [if_pos ht], rfl⟩
    | false =>
      rw [ht] at h
      obtain ⟨target, hf, he⟩ := bind_eq_ok.mp h
      obtain rfl := pure_eq_ok.mp he
      exact ⟨condition, destination, target, hc, hd, by rw [ht]; exact hf, rfl⟩
  · rintro ⟨condition, destination, target, hc, hd, h, rfl⟩
    refine ⟨condition, hc, destination, hd, ?_⟩
    cases ht : test condition with
    | true =>
      rw [if_pos ht] at h
      exact h ▸ rfl
    | false =>
      rw [ht] at h
      exact bind_eq_ok.mpr ⟨target, h, rfl⟩

/-- An opcode has the effects it can have. -/
theorem effect_causes (h : m.effect i = .ok e) : i.opcode.Causes e := by
  cases o : i.opcode with
  | add | multiply | lessThan | equals =>
    rw [effect, o] at h
    obtain ⟨-, -, value, target, -, -, -, -, rfl⟩ := combine_eq_ok.mp h
    exact ⟨target, value, rfl⟩
  | input =>
    simp only [effect, o] at h
    split at h
    · cases h
    · obtain ⟨target, -, he⟩ := bind_eq_ok.mp h
      exact ⟨target, _, pure_eq_ok.mp he⟩
  | output =>
    rw [effect, o] at h
    obtain ⟨value, -, he⟩ := bind_eq_ok.mp h
    exact ⟨value, pure_eq_ok.mp he⟩
  | jumpIfTrue | jumpIfFalse =>
    rw [effect, o] at h
    obtain ⟨-, -, target, -, -, -, he⟩ := branch_eq_ok.mp h
    exact ⟨target, he⟩
  | adjustBase =>
    rw [effect, o] at h
    obtain ⟨offset, -, h⟩ := bind_eq_ok.mp h
    obtain ⟨base, -, he⟩ := bind_eq_ok.mp h
    exact ⟨base, pure_eq_ok.mp he⟩
  | halt =>
    rw [effect, o] at h
    exact (Except.ok.inj h).symm

/-- An effect moves the counter only if the opcode manages it. -/
theorem counter_apply_of_not_manages (h : m.effect i = .ok e)
    (hi : i.opcode.managesCounter = false) : (m.apply e).counter = m.counter := by
  refine m.counter_apply e fun target he => ?_
  have hc := effect_causes h
  subst he
  cases o : i.opcode with
  | jumpIfTrue | jumpIfFalse | halt =>
    rw [o] at hi
    cases hi
  | output | adjustBase =>
    rw [o] at hc
    obtain ⟨x, he⟩ := hc
    cases he
  | _ =>
    rw [o] at hc
    obtain ⟨address, value, he⟩ := hc
    cases he

theorem status_apply_of_effect (h : m.effect i = .ok e) :
    (m.apply e).status = if i.opcode = .halt then .halted else m.status := by
  have hc := (effect_causes h).eq_halt_iff
  split
  · rename_i ho
    rw [hc.mp ho]
    rfl
  · rename_i ho
    exact m.status_apply e (mt hc.mpr ho)

/-! ## Steps -/

/-- Where an executed instruction leaves the counter. -/
def Lands (m : Machine) (i : Instruction) (e : Effect) (c : Cell) : Prop :=
  if i.opcode.managesCounter then c = (m.apply e).counter else m.following i = .ok c

/-- **The ways in which a step of a running machine ends.** -/
inductive Stepping (m : Machine) : Result Instruction → Prop
  /-- The instruction has its effect and the counter moves on. -/
  | executed {i : Instruction} {e : Effect} {c : Cell} (fetched : m.fetch = .ok i)
      (resolved : m.effect i = .ok e) (lands : m.Lands i e c) :
      Stepping m (.ok i, { m.apply e with counter := c, steps := m.steps + 1, last := some i })
  /-- The instruction or one of its parameters cannot be resolved. -/
  | refused {fault : Fault} (failed : (m.fetch >>= m.effect) = .error fault) :
      Stepping m (.error fault, { m with status := .faulted })
  /-- The effect has happened, but there is no next instruction. -/
  | stranded {i : Instruction} {e : Effect} {fault : Fault} (fetched : m.fetch = .ok i)
      (resolved : m.effect i = .ok e) (stays : i.opcode.managesCounter = false)
      (stuck : m.following i = .error fault) :
      Stepping m (.error fault, { m.apply e with status := .faulted })

theorem step_stepping (m : Machine) (running : m.status = .running) : m.Stepping m.step := by
  simp only [step, running, execute]
  cases fetched : m.fetch with
  | error fault => exact .refused (by rw [fetched]; rfl)
  | ok i =>
    cases resolved : m.effect i with
    | error fault =>
      simp only [resolved]
      exact .refused (by rw [fetched]; exact resolved)
    | ok e =>
      simp only [resolved, advance]
      cases hi : i.opcode.managesCounter with
      | true =>
        have := Stepping.executed fetched resolved (by rw [Lands, if_pos hi])
        simpa using this
      | false =>
        -- The effect has left the counter where it was, so the move can be judged before it.
        have hf : (m.apply e).following i = m.following i := by
          rw [following, counter_apply_of_not_manages resolved hi, following]
        rw [hf]
        cases stuck : m.following i with
        | error fault => exact .stranded fetched resolved hi stuck
        | ok c =>
          have := Stepping.executed fetched resolved (c := c) (by rw [Lands, hi]; exact stuck)
          simpa using this

theorem step_of_not_running (m : Machine) (h : m.status ≠ .running) :
    m.step = (.error (.notRunning m.status), m) := by
  unfold step
  split
  · contradiction
  · rfl

/-- Only a running machine executes instructions. -/
theorem running_of_step_ok {m m' : Machine} {i : Instruction} (h : m.step = (.ok i, m')) :
    m.status = .running := by
  by_cases running : m.status = .running
  · exact running
  · rw [step_of_not_running m running] at h
    cases h

end Machine
end IntcodeMachine
