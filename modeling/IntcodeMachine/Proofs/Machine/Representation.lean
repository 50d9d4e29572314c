import IntcodeMachine.Proofs.Machine.Operations

/-! # How memory is kept cannot be observed

An array that is longer than it need be, or a zero in the map, makes two memories
different although they read alike.  No program notices: two machines that differ
in nothing else are `Alike`, and remain so through every session, with the same
answers (`alike_indistinguishable`).  The proof follows the machine: whatever looks
at memory does so through `lookUp`, hence all that an instruction is resolved to is
equal on both sides, and applying equal effects keeps the machines alike.

The machines need not return from a run, so the two sides are compared for each
number of steps, with `Option.Rel`.
-/
namespace IntcodeMachine

namespace Memory

/-- The memories read the same at every cell that is not negative. -/
def ReadsAs (k l : Memory) : Prop := ∀ c : Cell, 0 ≤ c → k.read c = l.read c

variable {k l : Memory}

theorem ReadsAs.read (h : k.ReadsAs l) (c : Cell) : k.read c = l.read c := by
  by_cases hc : 0 ≤ c
  · exact h c hc
  · -- There is nothing to read: both sides have the address error.
    have negative : addressOf c = .error ⟨c⟩ := if_pos (Int64.not_le.mp hc)
    rw [Memory.read, Memory.read, negative]
    rfl

theorem ReadsAs.symm (h : k.ReadsAs l) : l.ReadsAs k := fun c hc => (h c hc).symm

theorem ReadsAs.set (h : k.ReadsAs l) (a : UInt64) (value : Cell) :
    (k.set a value).ReadsAs (l.set a value) := by
  intro c _
  have hr := h.read c
  cases hc : addressOf c with
  | error e => rw [Memory.read, Memory.read, hc]; rfl
  | ok b =>
    rw [read_of_addressOf hc, read_of_addressOf hc, Except.ok.injEq] at hr ⊢
    rw [cellAt_set, cellAt_set, hr]

/-- Writing to an address what it reads as is not seen. -/
theorem readsAs_set_cellAt (k : Memory) (a : UInt64) : k.ReadsAs (k.set a (k.cellAt a)) := by
  intro c _
  cases hc : addressOf c with
  | error e => rw [Memory.read, Memory.read, hc]; rfl
  | ok b =>
    rw [read_of_addressOf hc, read_of_addressOf hc, cellAt_set]
    split
    · rename_i same
      rw [same]
    · rfl

end Memory

namespace Machine

/-- **The machines differ at most in how their memories are kept.** -/
structure Alike (m n : Machine) : Prop where
  memory : m.memory.ReadsAs n.memory
  channel : m.channel = n.channel
  counter : m.counter = n.counter
  base : m.base = n.base
  status : m.status = n.status
  steps : m.steps = n.steps
  last : m.last = n.last

/-- The answers are equal and the machines after them alike. -/
def Together {α : Type} (x y : α × Machine) : Prop := x.1 = y.1 ∧ x.2.Alike y.2

theorem Together.exists_eq {α : Type} {x y : α × Machine} (h : Together x y) :
    ∃ a m n, x = (a, m) ∧ y = (a, n) ∧ m.Alike n :=
  ⟨x.1, x.2, y.2, rfl, Prod.ext h.1.symm rfl, h.2⟩

namespace Alike

variable {m n : Machine}

theorem symm (h : m.Alike n) : n.Alike m :=
  ⟨h.memory.symm, h.channel.symm, h.counter.symm, h.base.symm, h.status.symm, h.steps.symm,
    h.last.symm⟩

/-! ## Instructions are resolved to the same -/

theorem lookUp (h : m.Alike n) : m.lookUp = n.lookUp := by
  funext c
  rw [Machine.lookUp, Machine.lookUp, h.memory.read]

theorem fetch (h : m.Alike n) : m.fetch = n.fetch := by
  rw [fetch_eq, fetch_eq, h.lookUp, h.counter]

theorem parameter (h : m.Alike n) : m.parameter = n.parameter := by
  funext index
  rw [parameter_eq, parameter_eq, h.lookUp, h.counter]

theorem relative (h : m.Alike n) : m.relative = n.relative := by
  funext offset
  rw [Machine.relative, Machine.relative, h.base]

theorem source (h : m.Alike n) : m.source = n.source := by
  funext i index
  rw [source_eq, source_eq, h.parameter, h.relative, h.lookUp]

theorem target (h : m.Alike n) : m.target = n.target := by
  funext i index
  rw [Machine.target, Machine.target, h.parameter, h.relative]

theorem following (h : m.Alike n) : m.following = n.following := by
  funext i
  rw [Machine.following, Machine.following, h.counter]

theorem combine (h : m.Alike n) : m.combine = n.combine := by
  funext i operation
  rw [Machine.combine, Machine.combine, h.source, h.target]

theorem branch (h : m.Alike n) : m.branch = n.branch := by
  funext i test
  rw [Machine.branch, Machine.branch, h.source, h.following]

theorem effect (h : m.Alike n) : m.effect = n.effect := by
  funext i
  rw [Machine.effect, Machine.effect, h.combine, h.branch, h.source, h.target, h.channel,
    h.counter, h.base]

/-! ## Steps and runs keep machines alike -/

theorem apply (h : m.Alike n) (e : Effect) : (m.apply e).Alike (n.apply e) := by
  cases e with
  | store address value => exact { h with memory := h.memory.set address value }
  | emit value => exact { h with channel := congrArg (·.emit value) h.channel }
  | rebase base => exact { h with base := rfl }
  | jump target => exact { h with counter := rfl }
  | halt => exact { h with status := rfl }

theorem advance (h : m.Alike n) (i : Instruction) : Together (m.advance i) (n.advance i) := by
  unfold Machine.advance
  rw [h.following]
  split
  · exact ⟨rfl, h⟩
  · split
    · exact ⟨rfl, { h with counter := rfl }⟩
    · exact ⟨rfl, h⟩

theorem execute (h : m.Alike n) : Together m.execute n.execute := by
  unfold Machine.execute
  rw [h.fetch, h.effect]
  split
  · exact ⟨rfl, h⟩
  · split
    · exact ⟨rfl, h⟩
    · exact (h.apply _).advance _

theorem step (h : m.Alike n) : Together m.step n.step := by
  by_cases running : m.status = .running
  · obtain ⟨result, m', n', hm, hn, alike⟩ := h.execute.exists_eq
    simp only [Machine.step, running, h.status ▸ running, hm, hn]
    cases result with
    | ok i => exact ⟨rfl, { alike with steps := congrArg (· + 1) alike.steps, last := rfl }⟩
    | error fault => exact ⟨rfl, { alike with status := rfl }⟩
  · rw [step_of_not_running m running, step_of_not_running n (h.status ▸ running), h.status]
    exact ⟨rfl, h⟩

theorem runSteps (h : m.Alike n) (fuel : Nat) :
    Option.Rel Together (m.runSteps fuel) (n.runSteps fuel) := by
  induction fuel generalizing m n with
  | zero =>
    by_cases running : m.status = .running
    · rw [runSteps_zero running, runSteps_zero (h.status ▸ running)]
      exact .none
    · rw [runSteps_of_not_running running, runSteps_of_not_running (h.status ▸ running)]
      exact .some ⟨rfl, h⟩
  | succ fuel ih =>
    by_cases running : m.status = .running
    · rw [runSteps_succ running, runSteps_succ (h.status ▸ running)]
      obtain ⟨result, m', n', hm, hn, alike⟩ := h.step.exists_eq
      rw [hm, hn]
      cases result with
      | ok i => exact ih alike
      | error fault => exact .some ⟨rfl, alike⟩
    · rw [runSteps_of_not_running running, runSteps_of_not_running (h.status ▸ running)]
      exact .some ⟨rfl, h⟩

theorem run (h : m.Alike n) (fuel : Nat) : Option.Rel Together (m.run fuel) (n.run fuel) := by
  unfold Machine.run
  rw [h.status, h.steps]
  split
  · exact .some ⟨rfl, h⟩
  · have ran := h.runSteps fuel
    generalize m.runSteps fuel = x at ran
    generalize n.runSteps fuel = y at ran
    cases ran with
    | none => exact .none
    | some together =>
      obtain ⟨result, m', n', rfl, rfl, alike⟩ := together.exists_eq
      cases result with
      | ok _ => exact .some ⟨congrArg (fun s => Except.ok (s - n.steps)) alike.steps, alike⟩
      | error fault => exact .some ⟨rfl, alike⟩

theorem stepsToOutput (h : m.Alike n) (seen fuel : Nat) :
    Option.Rel Together (m.stepsToOutput seen fuel) (n.stepsToOutput seen fuel) := by
  induction fuel generalizing m n with
  | zero =>
    by_cases halted : m.status = .halted
    · rw [stepsToOutput_halted halted, stepsToOutput_halted (h.status ▸ halted)]
      exact .some ⟨rfl, h⟩
    · rw [stepsToOutput_zero halted, stepsToOutput_zero (h.status ▸ halted)]
      exact .none
  | succ fuel ih =>
    by_cases halted : m.status = .halted
    · rw [stepsToOutput_halted halted, stepsToOutput_halted (h.status ▸ halted)]
      exact .some ⟨rfl, h⟩
    · rw [stepsToOutput_succ halted, stepsToOutput_succ (h.status ▸ halted)]
      obtain ⟨result, m', n', hm, hn, alike⟩ := h.step.exists_eq
      rw [hm, hn]
      cases result with
      | error fault => exact .some ⟨rfl, alike⟩
      | ok i =>
        have outputs : m'.outputs = n'.outputs := congrArg Channel.outputs alike.channel
        simp only [outputs]
        split
        · exact .some ⟨rfl, alike⟩
        · exact ih alike

theorem runToOutput (h : m.Alike n) (fuel : Nat) :
    Option.Rel Together (m.runToOutput fuel) (n.runToOutput fuel) := by
  have outputs : m.outputs = n.outputs := congrArg Channel.outputs h.channel
  rw [Machine.runToOutput, Machine.runToOutput, outputs]
  exact h.stepsToOutput _ fuel

/-! ## Operations and sessions -/

theorem poke (h : m.Alike n) (address value : Cell) :
    (∃ e, m.poke address value = .error e ∧ n.poke address value = .error e) ∨
      ∃ m' n', m.poke address value = .ok m' ∧ n.poke address value = .ok n' ∧ m'.Alike n' := by
  unfold Machine.poke
  cases Memory.addressOf address with
  | error e => exact .inl ⟨e, rfl, rfl⟩
  | ok a => exact .inr ⟨_, _, rfl, rfl, { h with memory := h.memory.set a value }⟩

theorem perform (h : m.Alike n) (o : Operation) (fuel : Nat) :
    Option.Rel Together (m.perform o fuel) (n.perform o fuel) := by
  have mapped {α : Type} (f : α → Answer) {x y : Option (α × Machine)}
      (h : Option.Rel Together x y) :
      Option.Rel Together (x.map fun r => (f r.1, r.2)) (y.map fun r => (f r.1, r.2)) := by
    cases h with
    | none => exact .none
    | some together => exact .some ⟨congrArg f together.1, together.2⟩
  cases o with
  | step => exact .some ⟨congrArg Answer.stepped h.step.1, h.step.2⟩
  | run => exact mapped .ran (h.run fuel)
  | runToOutput => exact mapped .surfaced (h.runToOutput fuel)
  | setInput value =>
    exact .some ⟨rfl, { h with channel := congrArg (·.setInput value) h.channel }⟩
  | clearInput => exact .some ⟨rfl, { h with channel := congrArg Channel.clearInput h.channel }⟩
  | write address value =>
    unfold Machine.perform
    rcases h.poke address value with ⟨e, hm, hn⟩ | ⟨m', n', hm, hn, alike⟩
    · simp only [hm, hn]
      exact .some ⟨rfl, h⟩
    · simp only [hm, hn]
      exact .some ⟨rfl, alike⟩

/-- **An alike machine follows every session**, answer by answer. -/
theorem session (h : m.Alike n) {operations : List Operation} {answers : List Answer}
    {m' : Machine} (session : m.Session operations answers m') :
    ∃ n', n.Session operations answers n' ∧ m'.Alike n' := by
  induction session generalizing n with
  | nil m => exact ⟨n, .nil n, h⟩
  | @cons m _ _ o _ _ _ first _ ih =>
    -- As many steps as are enough for one machine are enough for the other.
    obtain ⟨fuel, first⟩ := first
    have performed := h.perform o fuel
    rw [first] at performed
    generalize hn : n.perform o fuel = y at performed
    cases performed with
    | some together =>
      obtain ⟨_, _, n', he, rfl, alike⟩ := together.exists_eq
      cases he
      obtain ⟨n'', rest, alike⟩ := ih alike
      exact ⟨n'', .cons ⟨fuel, hn⟩ rest, alike⟩

end Alike

/-! ## The statement -/

/-- **The operations do the same to both machines**: they return on both or on neither, and then
they answer the same and leave the machines alike. -/
structure Indistinguishable (m n : Machine) (operations : List Operation) : Prop where
  returns : (∃ answers m', m.Session operations answers m') ↔
    ∃ answers n', n.Session operations answers n'
  agrees : ∀ answers m' answers' n', m.Session operations answers m' →
    n.Session operations answers' n' → answers = answers' ∧ m'.Alike n'

theorem Alike.indistinguishable {m n : Machine} (h : m.Alike n) (operations : List Operation) :
    Indistinguishable m n operations := by
  refine ⟨⟨?_, ?_⟩, ?_⟩
  · rintro ⟨answers, m', hm⟩
    obtain ⟨n', hn, -⟩ := h.session hm
    exact ⟨answers, n', hn⟩
  · rintro ⟨answers, n', hn⟩
    obtain ⟨m', hm, -⟩ := h.symm.session hn
    exact ⟨answers, m', hm⟩
  · intro answers m' answers' n' hm hn
    obtain ⟨n'', hn', alike⟩ := h.session hm
    obtain ⟨rfl, rfl⟩ := hn'.unique hn
    exact ⟨rfl, alike⟩

/-- Zeros at the end of an image are not seen, on whichever side of the limit they are. -/
theorem alike_load_append_zeros (image : List Cell) (k : Nat) (input : Option Cell) :
    (load image input).Alike (load (image ++ List.replicate k 0) input) := by
  have memory : (Memory.ofImage image).ReadsAs (Memory.ofImage (image ++ List.replicate k 0)) := by
    intro c hc
    have hc : 0 ≤ c.toInt := Int64.le_iff_toInt_le.mp hc
    have address := Memory.addressOf_eq_ok.mpr ⟨hc, rfl⟩
    rw [Memory.read_of_addressOf address, Memory.read_of_addressOf address,
      Memory.cellAt_ofImage _ (Memory.addressOf_lt address),
      Memory.cellAt_ofImage _ (Memory.addressOf_lt address), List.getD_eq_getElem?_getD,
      List.getD_eq_getElem?_getD, List.getElem?_append]
    split
    · rfl
    · rename_i beyond
      rw [List.getElem?_eq_none (Nat.not_lt.mp beyond), List.getElem?_replicate]
      split <;> rfl
  exact ⟨memory, rfl, rfl, rfl, rfl, rfl, rfl⟩

/-- **No session can tell how memory is kept.**  Machines that read alike cannot be told apart, nor
can a program and the same program followed by zeros. -/
theorem alike_indistinguishable (operations : List Operation) :
    (∀ m n : Machine, m.Alike n → Indistinguishable m n operations) ∧
      ∀ (image : List Cell) (k : Nat) (input : Option Cell),
        Indistinguishable (load image input) (load (image ++ List.replicate k 0) input)
          operations :=
  ⟨fun _ _ alike => alike.indistinguishable operations,
    fun image k input => (alike_load_append_zeros image k input).indistinguishable operations⟩

/-- The second machine keeps a zero far beyond the limit, the first one nothing. -/
theorem kept_zero_indistinguishable :
    let m := load [99] none
    let n := { m with memory := m.memory.set 5000000 0 }
    m.memory ≠ n.memory ∧ m.Alike n ∧
      Indistinguishable m n [.write 0 3, .step, .setInput 7, .run, .runToOutput] := by
  intro m n
  have alike : m.Alike n :=
    { memory := Memory.readsAs_set_cellAt m.memory 5000000, channel := rfl, counter := rfl
      base := rfl, status := rfl, steps := rfl, last := rfl }
  exact ⟨by decide, alike, (alike_indistinguishable _).1 m n alike⟩

end Machine
end IntcodeMachine
