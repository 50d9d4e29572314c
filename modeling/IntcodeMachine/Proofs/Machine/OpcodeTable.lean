import IntcodeMachine.Proofs.Machine.Stepping

/-! # The opcode table

The table of the ten opcodes in exact integer arithmetic, on the state before the
step: when an instruction can be executed (`Ready`) and what it does (`Performs`).
Neither mentions in which order the machine looks at parameters, what it does
first, or how it finds an overflow.  The statement is `step_ok_iff_ready`: a
running machine executes exactly the instructions that are ready, and performs
them.

The table decides also about instructions that write into their own cells, because
every cell in it is one of the memory before the step.
-/
namespace IntcodeMachine

/-- The index of the parameter through which an opcode writes. -/
def Opcode.target? (o : Opcode) : Option Nat := o.roles.findIdx? (· == .target)

namespace Machine
variable (m : Machine) (i : Instruction)

/-! ## The table -/

/-- The integer that an opcode writes. -/
def stored : Option Int :=
  match i.opcode with
  | .add => some ((m.value i 0).toInt + (m.value i 1).toInt)
  | .multiply => some ((m.value i 0).toInt * (m.value i 1).toInt)
  | .input => m.channel.input.map Int64.toInt
  | .lessThan => some (if (m.value i 0).toInt < (m.value i 1).toInt then 1 else 0)
  | .equals => some (if m.value i 0 = m.value i 1 then 1 else 0)
  | _ => none

/-- The instruction is a jump that is taken. -/
def Jumps : Prop :=
  i.opcode = .jumpIfTrue ∧ m.value i 0 ≠ 0 ∨ i.opcode = .jumpIfFalse ∧ m.value i 0 = 0

instance : Decidable (m.Jumps i) := inferInstanceAs (Decidable (_ ∨ _))

/-- Where the machine continues, as an integer. -/
def next : Int :=
  if i.opcode = .halt then m.counter.toInt
  else if m.Jumps i then (m.value i 1).toInt
  else m.counter.toInt + i.width

/-- Every parameter of the instruction can be resolved. -/
def Resolvable : Prop := ∀ k role, i.opcode.roles[k]? = some role → m.Resolves i k role

/-- **The instruction stands at the counter and can be executed**: every parameter can be resolved,
there is input to read, and whatever is computed fits into a cell, the address of the next
instruction included. -/
structure Ready : Prop where
  counter : 0 ≤ m.counter.toInt
  decodes : Instruction.decode (m.memory.view m.counter.toInt) = .ok i
  parameters : m.Resolvable i
  input : i.opcode = .input → m.channel.input ≠ none
  stores : ∀ n, m.stored i = some n → Cell.Fits n
  rebases : i.opcode = .adjustBase → Cell.Fits (m.base.toInt + (m.value i 0).toInt)
  follows : i.opcode ≠ .halt → ¬ m.Jumps i → Cell.Fits (m.counter.toInt + i.width)

/-- **What executing the instruction does to the machine.** -/
structure Performs (m' : Machine) : Prop where
  /-- The place of the target reads as what has been stored. -/
  written : ∀ k n, i.opcode.target? = some k → m.stored i = some n →
    ∀ c : Cell, c.toInt = m.place i k → (m'.memory.read c).map Int64.toInt = .ok n
  /-- Every other cell reads as it did. -/
  kept : ∀ c : Cell, (∀ k, i.opcode.target? = some k → c.toInt ≠ m.place i k) →
    m'.memory.read c = m.memory.read c
  input : m'.channel.input = m.channel.input
  outputs : m'.outputs.toList =
    m.outputs.toList ++ if i.opcode = .output then [m.value i 0] else []
  base : m'.base.toInt =
    if i.opcode = .adjustBase then m.base.toInt + (m.value i 0).toInt else m.base.toInt
  counter : m'.counter.toInt = m.next i
  status : m'.status = if i.opcode = .halt then .halted else .running
  steps : m'.steps = m.steps + 1
  last : m'.last = some i

/-! ## The table as a relation of effects -/

/-- The effects that the table gives an instruction. -/
def Yields : Effect → Prop
  | .store a v => ∃ k t, i.opcode.target? = some k ∧ m.stored i = some v.toInt ∧
      t.toInt = m.place i k ∧ Memory.addressOf t = .ok a
  | .emit v => i.opcode = .output ∧ v = m.value i 0
  | .rebase b => i.opcode = .adjustBase ∧ b.toInt = m.base.toInt + (m.value i 0).toInt
  | .jump c => (i.opcode = .jumpIfTrue ∨ i.opcode = .jumpIfFalse) ∧
      if m.Jumps i then c = m.value i 1 else c.toInt = m.counter.toInt + i.width
  | .halt => i.opcode = .halt

variable {m : Machine} {i : Instruction}

theorem forall_getElem?_cons {α : Type} {p : Nat → α → Prop} {a : α} {l : List α} :
    (∀ k b, (a :: l)[k]? = some b → p k b) ↔
      p 0 a ∧ ∀ k b, l[k]? = some b → p (k + 1) b := by
  constructor
  · intro h
    exact ⟨h 0 a rfl, fun k b hb => h (k + 1) b hb⟩
  · rintro ⟨h0, h⟩ k b hb
    cases k with
    | zero =>
      obtain rfl := Option.some.inj hb
      exact h0
    | succ k => exact h k b hb

theorem Yields.causes {e : Effect} (y : m.Yields i e) : i.opcode.Causes e := by
  cases e with
  | store a v =>
    obtain ⟨k, -, hk, -⟩ := y
    cases o : i.opcode with
    | add | multiply | input | lessThan | equals => exact ⟨a, v, rfl⟩
    | _ =>
      rw [o] at hk
      cases hk
  | emit v =>
    rw [y.1]
    exact ⟨v, rfl⟩
  | rebase b =>
    rw [y.1]
    exact ⟨b, rfl⟩
  | jump c => rcases y.1 with o | o <;> rw [o] <;> exact ⟨c, rfl⟩
  | halt =>
    rw [show i.opcode = .halt from y]
    rfl

theorem combine_eq_ok_iff (hc : 0 ≤ m.counter.toInt) {e : Effect}
    {operation : Cell → Cell → Option Cell}
    (roles : i.opcode.roles = [.source, .source, .target])
    (computes : ∀ v, operation (m.value i 0) (m.value i 1) = some v ↔ m.stored i = some v.toInt) :
    m.combine i operation = .ok e ↔ m.Resolvable i ∧ m.Yields i e := by
  have ht : i.opcode.target? = some 2 := by rw [Opcode.target?, roles]; rfl
  have h0 : i.opcode.roles[0]? = some .source := by rw [roles]; rfl
  have h1 : i.opcode.roles[1]? = some .source := by rw [roles]; rfl
  have h2 : i.opcode.roles[2]? = some .target := by rw [roles]; rfl
  rw [combine_eq_ok]
  simp only [source_eq_ok hc h0, source_eq_ok hc h1, target_eq_ok hc h2]
  constructor
  · rintro ⟨_, _, v, a, ⟨r0, rfl⟩, ⟨r1, rfl⟩, hv, ⟨r2, t, place, address⟩, rfl⟩
    refine ⟨?_, 2, t, ht, (computes v).mp hv, place, address⟩
    rw [Resolvable, roles]
    simpa [forall_getElem?_cons] using ⟨r0, r1, r2⟩
  · rintro ⟨r, y⟩
    obtain ⟨a, v, rfl⟩ : ∃ a v, e = .store a v := by
      have := y.causes
      cases o : i.opcode with
      | add | multiply | lessThan | equals =>
        rw [o] at this
        exact this
      | _ =>
        rw [o] at roles
        cases roles
    obtain ⟨k, t, hk, stored, place, address⟩ := y
    obtain rfl := Option.some.inj (hk.symm.trans ht)
    exact ⟨_, _, v, a, ⟨r 0 _ h0, rfl⟩, ⟨r 1 _ h1, rfl⟩, (computes v).mpr stored,
      ⟨r 2 _ h2, t, place, address⟩, rfl⟩

theorem branch_eq_ok_iff (hc : 0 ≤ m.counter.toInt) {e : Effect} {test : Cell → Bool}
    (o : i.opcode = .jumpIfTrue ∨ i.opcode = .jumpIfFalse)
    (decides : test (m.value i 0) = true ↔ m.Jumps i) :
    m.branch i test = .ok e ↔ m.Resolvable i ∧ m.Yields i e := by
  have roles : i.opcode.roles = [.source, .source] := by rcases o with o | o <;> rw [o] <;> rfl
  have h0 : i.opcode.roles[0]? = some .source := by rw [roles]; rfl
  have h1 : i.opcode.roles[1]? = some .source := by rw [roles]; rfl
  rw [branch_eq_ok]
  simp only [source_eq_ok hc h0, source_eq_ok hc h1, following_eq_ok]
  constructor
  · rintro ⟨_, _, c, ⟨r0, rfl⟩, ⟨r1, rfl⟩, next, rfl⟩
    refine ⟨?_, o, ?_⟩
    · rw [Resolvable, roles]
      simpa [forall_getElem?_cons] using ⟨r0, r1⟩
    · simpa only [decides] using next
  · rintro ⟨r, y⟩
    obtain ⟨c, rfl⟩ : ∃ c, e = .jump c := by
      have := y.causes
      rcases o with o | o <;> rw [o] at this <;> exact this
    exact ⟨_, _, c, ⟨r 0 _ h0, rfl⟩, ⟨r 1 _ h1, rfl⟩, by simpa only [decides] using y.2, rfl⟩

theorem resolvable_singleton {role : Role} (roles : i.opcode.roles = [role]) :
    m.Resolvable i ↔ m.Resolves i 0 role := by
  rw [Resolvable, roles]
  simp [forall_getElem?_cons]

theorem stored_input (o : i.opcode = .input) {v : Cell} :
    m.stored i = some v.toInt ↔ m.channel.input = some v := by
  simp only [stored, o]
  cases m.channel.input with
  | none => simp
  | some w => simp [Int64.toInt_inj]

theorem input_eq_ok_iff (hc : 0 ≤ m.counter.toInt) {e : Effect} (o : i.opcode = .input) :
    m.effect i = .ok e ↔ m.Resolvable i ∧ m.Yields i e := by
  have ht : i.opcode.target? = some 0 := by rw [o]; rfl
  have h0 : i.opcode.roles[0]? = some .target := by rw [o]; rfl
  rw [resolvable_singleton (by rw [o]; rfl)]
  simp only [effect, o]
  constructor
  · intro h
    split at h
    · cases h
    · rename_i value hv
      obtain ⟨a, ha, he⟩ := bind_eq_ok.mp h
      obtain rfl := pure_eq_ok.mp he
      obtain ⟨r, t, place, address⟩ := (target_eq_ok hc h0).mp ha
      exact ⟨r, 0, t, ht, (stored_input o).mpr hv, place, address⟩
  · rintro ⟨r, y⟩
    obtain ⟨a, v, rfl⟩ : Opcode.Causes .input e := o ▸ y.causes
    obtain ⟨k, t, hk, stored, place, address⟩ := y
    obtain rfl := Option.some.inj (hk.symm.trans ht)
    rw [(stored_input o).mp stored]
    exact bind_eq_ok.mpr ⟨a, (target_eq_ok hc h0).mpr ⟨r, t, place, address⟩, rfl⟩

theorem output_eq_ok_iff (hc : 0 ≤ m.counter.toInt) {e : Effect} (o : i.opcode = .output) :
    m.effect i = .ok e ↔ m.Resolvable i ∧ m.Yields i e := by
  have h0 : i.opcode.roles[0]? = some .source := by rw [o]; rfl
  rw [resolvable_singleton (by rw [o]; rfl)]
  simp only [effect, o, bind_eq_ok, pure_eq_ok, source_eq_ok hc h0]
  constructor
  · rintro ⟨_, ⟨r, rfl⟩, rfl⟩
    exact ⟨r, o, rfl⟩
  · rintro ⟨r, y⟩
    obtain ⟨v, rfl⟩ : Opcode.Causes .output e := o ▸ y.causes
    exact ⟨v, ⟨r, y.2⟩, rfl⟩

theorem adjustBase_eq_ok_iff (hc : 0 ≤ m.counter.toInt) {e : Effect}
    (o : i.opcode = .adjustBase) :
    m.effect i = .ok e ↔ m.Resolvable i ∧ m.Yields i e := by
  have h0 : i.opcode.roles[0]? = some .source := by rw [o]; rfl
  rw [resolvable_singleton (by rw [o]; rfl)]
  simp only [effect, o, bind_eq_ok, pure_eq_ok, source_eq_ok hc h0, Fault.orOverflow_eq_ok,
    Cell.add?_eq_some]
  constructor
  · rintro ⟨_, ⟨r, rfl⟩, b, hb, rfl⟩
    exact ⟨r, o, hb⟩
  · rintro ⟨r, y⟩
    obtain ⟨b, rfl⟩ : Opcode.Causes .adjustBase e := o ▸ y.causes
    exact ⟨_, ⟨r, rfl⟩, b, y.2, rfl⟩

theorem halt_eq_ok_iff {e : Effect} (o : i.opcode = .halt) :
    m.effect i = .ok e ↔ m.Resolvable i ∧ m.Yields i e := by
  have r : m.Resolvable i := fun k role h => by rw [o] at h; cases h
  simp only [effect, o, Except.ok.injEq, r, true_and]
  constructor
  · rintro rfl
    exact o
  · intro y
    have : Opcode.Causes .halt e := o ▸ y.causes
    exact this.symm

/-- **The machine gives an instruction the effect that the table gives it.** -/
theorem effect_eq_ok (hc : 0 ≤ m.counter.toInt) {e : Effect} :
    m.effect i = .ok e ↔ m.Resolvable i ∧ m.Yields i e := by
  cases o : i.opcode with
  | add =>
    rw [effect, o]
    refine combine_eq_ok_iff hc (by rw [o]; rfl) fun v => ?_
    rw [Cell.add?_eq_some, stored, o, Option.some.injEq, eq_comm]
  | multiply =>
    rw [effect, o]
    refine combine_eq_ok_iff hc (by rw [o]; rfl) fun v => ?_
    rw [Cell.mul?_eq_some, stored, o, Option.some.injEq, eq_comm]
  | lessThan =>
    rw [effect, o]
    refine combine_eq_ok_iff hc (by rw [o]; rfl) fun v => ?_
    have : (m.value i 0 < m.value i 1) = ((m.value i 0).toInt < (m.value i 1).toInt) :=
      propext Int64.lt_iff_toInt_lt
    rw [stored, o, Option.some.injEq, Option.some.injEq, ← Int64.toInt_inj, Cell.toInt_ofBool]
    simp only [decide_eq_true_eq, this]
  | equals =>
    rw [effect, o]
    refine combine_eq_ok_iff hc (by rw [o]; rfl) fun v => ?_
    rw [stored, o, Option.some.injEq, Option.some.injEq, ← Int64.toInt_inj, Cell.toInt_ofBool]
    simp only [beq_iff_eq]
  | jumpIfTrue =>
    rw [effect, o]
    refine branch_eq_ok_iff hc (.inl o) ?_
    simp [Jumps, o]
  | jumpIfFalse =>
    rw [effect, o]
    refine branch_eq_ok_iff hc (.inr o) ?_
    simp [Jumps, o]
  | input => exact input_eq_ok_iff hc o
  | output => exact output_eq_ok_iff hc o
  | adjustBase => exact adjustBase_eq_ok_iff hc o
  | halt => exact halt_eq_ok_iff o

/-! ## Ready instructions -/

/-- The machine continues where the table says. -/
theorem lands_iff {e : Effect} (y : m.Yields i e) {c : Cell} :
    m.Lands i e c ↔ c.toInt = m.next i := by
  have injective (t : Cell) : c = t ↔ c.toInt = t.toInt := Int64.toInt_inj.symm
  cases o : i.opcode with
  | halt =>
    obtain rfl : Opcode.Causes .halt e := o ▸ y.causes
    rw [Lands, o, if_pos (by decide), next, if_pos o, injective]
    rfl
  | jumpIfTrue | jumpIfFalse =>
    obtain ⟨t, rfl⟩ := (o ▸ y.causes : Opcode.Causes _ e)
    have ht : t.toInt = m.next i := by
      have hy := y.2
      rw [next, if_neg (by rw [o]; decide)]
      split at hy
      · rename_i taken
        rw [if_pos taken, hy]
      · rename_i untaken
        rw [if_neg untaken, hy]
    rw [Lands, o, if_pos (by decide), ← ht, injective]
    rfl
  | _ =>
    have untaken : ¬ m.Jumps i := by rw [Jumps, o]; simp
    rw [Lands, o, if_neg (by decide), following_eq_ok, next, if_neg (by rw [o]; decide),
      if_neg untaken]

theorem exists_address {n : Int} (nonneg : 0 ≤ n) (le : n ≤ Cell.greatest) :
    ∃ (t : Cell) (a : UInt64), t.toInt = n ∧ Memory.addressOf t = .ok a := by
  obtain ⟨t, ht⟩ := Cell.fits_iff.mp ⟨by unfold Cell.least; omega, le⟩
  exact ⟨t, _, ht, Memory.addressOf_eq_ok.mpr ⟨by omega, rfl⟩⟩

/-- Storing needs a value that fits and a target that can be resolved. -/
theorem exists_yields_store {k : Nat} {n : Int} (role : i.opcode.roles[k]? = some .target)
    (target : i.opcode.target? = some k) (stored : m.stored i = some n) (fits : Cell.Fits n)
    (r : m.Resolvable i) : ∃ e, m.Yields i e := by
  have hr := r k _ role
  have placed := hr.placed (by rcases hr.legal with h | h <;> rw [h] <;> decide)
  -- Whatever fits is a cell, and whatever is placed has an address.
  obtain ⟨t, a, place, address⟩ := exists_address placed.1 placed.2
  obtain ⟨v, rfl⟩ := Cell.fits_iff.mp fits
  exact ⟨.store a v, k, t, target, stored, place, address⟩

theorem Ready.exists_yields (ready : m.Ready i) : ∃ e, m.Yields i e := by
  cases o : i.opcode with
  | add | multiply | lessThan | equals =>
    have stored : ∃ n, m.stored i = some n := by rw [Machine.stored, o]; exact ⟨_, rfl⟩
    obtain ⟨n, hn⟩ := stored
    exact exists_yields_store (k := 2) (by rw [o]; rfl) (by rw [o]; rfl) hn
      (ready.stores n hn) ready.parameters
  | input =>
    obtain ⟨v, hv⟩ := Option.ne_none_iff_exists'.mp (ready.input o)
    exact exists_yields_store (k := 0) (by rw [o]; rfl) (by rw [o]; rfl)
      ((stored_input o).mpr hv) (Cell.fits_toInt v) ready.parameters
  | output => exact ⟨.emit _, o, rfl⟩
  | adjustBase =>
    obtain ⟨b, hb⟩ := Cell.fits_iff.mp (ready.rebases o)
    exact ⟨.rebase b, o, hb⟩
  | jumpIfTrue | jumpIfFalse =>
    have jump : i.opcode = .jumpIfTrue ∨ i.opcode = .jumpIfFalse := by simp [o]
    by_cases taken : m.Jumps i
    · exact ⟨.jump (m.value i 1), jump, by rw [if_pos taken]⟩
    · obtain ⟨c, hc⟩ := Cell.fits_iff.mp (ready.follows (by rw [o]; decide) taken)
      exact ⟨.jump c, jump, by rw [if_neg taken, hc]⟩
  | halt => exact ⟨.halt, o⟩

/-- What an opcode stores is the value of a cell as soon as it has an effect. -/
theorem Yields.fits_of_stored {e : Effect} (y : m.Yields i e) {n : Int}
    (stored : m.stored i = some n) : Cell.Fits n := by
  cases o : i.opcode with
  | add | multiply | input | lessThan | equals =>
    obtain ⟨a, v, rfl⟩ := (o ▸ y.causes : Opcode.Causes _ e)
    obtain ⟨-, -, -, hv, -⟩ := y
    obtain rfl := Option.some.inj (stored.symm.trans hv)
    exact Cell.fits_toInt v
  | _ =>
    rw [Machine.stored, o] at stored
    cases stored

/-- **An instruction is ready if and only if nothing fails on the way.** -/
theorem ready_iff :
    m.Ready i ↔ ∃ e c, m.fetch = .ok i ∧ m.effect i = .ok e ∧ m.Lands i e c := by
  constructor
  · intro ready
    obtain ⟨e, y⟩ := ready.exists_yields
    have fits : Cell.Fits (m.next i) := by
      unfold next
      split
      · exact Cell.fits_toInt _
      · split
        · exact Cell.fits_toInt _
        · exact ready.follows ‹_› ‹_›
    obtain ⟨c, hc⟩ := Cell.fits_iff.mp fits
    exact ⟨e, c, fetch_eq_ok.mpr ⟨ready.counter, ready.decodes⟩,
      (effect_eq_ok ready.counter).mpr ⟨ready.parameters, y⟩, (lands_iff y).mpr hc⟩
  · rintro ⟨e, c, fetched, resolved, lands⟩
    obtain ⟨counter, decodes⟩ := fetch_eq_ok.mp fetched
    obtain ⟨parameters, y⟩ := (effect_eq_ok counter).mp resolved
    refine ⟨counter, decodes, parameters, ?_, fun n hn => y.fits_of_stored hn, ?_, ?_⟩
    · intro o hnone
      obtain ⟨a, v, rfl⟩ : Opcode.Causes .input e := o ▸ y.causes
      obtain ⟨-, -, -, stored, -⟩ := y
      rw [(stored_input o).mp stored] at hnone
      cases hnone
    · intro o
      obtain ⟨b, rfl⟩ : Opcode.Causes .adjustBase e := o ▸ y.causes
      exact y.2 ▸ Cell.fits_toInt b
    · intro running untaken
      have hc := (lands_iff y).mp lands
      rw [next, if_neg running, if_neg untaken] at hc
      exact hc ▸ Cell.fits_toInt c

/-! ## Performed instructions -/

theorem Yields.written {e : Effect} (y : m.Yields i e) {k : Nat} {n : Int}
    (target : i.opcode.target? = some k) (stored : m.stored i = some n) {c : Cell}
    (place : c.toInt = m.place i k) :
    ((m.apply e).memory.read c).map Int64.toInt = .ok n := by
  cases o : i.opcode with
  | add | multiply | input | lessThan | equals =>
    obtain ⟨a, v, rfl⟩ := (o ▸ y.causes : Opcode.Causes _ e)
    obtain ⟨l, t, hl, hv, ht, address⟩ := y
    obtain rfl := Option.some.inj (hl.symm.trans target)
    obtain rfl := Option.some.inj (hv.symm.trans stored)
    obtain rfl : c = t := Int64.toInt_inj.mp (place.trans ht.symm)
    show ((m.memory.set a v).read c).map Int64.toInt = _
    rw [Memory.read_set _ address, if_pos rfl]
    rfl
  | _ =>
    rw [Machine.stored, o] at stored
    cases stored

theorem Yields.kept {e : Effect} (y : m.Yields i e) {c : Cell}
    (elsewhere : ∀ k, i.opcode.target? = some k → c.toInt ≠ m.place i k) :
    (m.apply e).memory.read c = m.memory.read c := by
  cases e with
  | store a v =>
    obtain ⟨k, t, target, -, place, address⟩ := y
    have : c ≠ t := fun h => elsewhere k target (h ▸ place)
    show (m.memory.set a v).read c = _
    rw [Memory.read_set _ address, if_neg this]
  | _ => rfl

theorem Yields.emitted {e : Effect} (y : m.Yields i e) :
    e.emitted = if i.opcode = .output then [m.value i 0] else [] := by
  cases o : i.opcode with
  | output =>
    obtain ⟨v, rfl⟩ : Opcode.Causes .output e := o ▸ y.causes
    rw [if_pos rfl, ← y.2]
    rfl
  | adjustBase | jumpIfTrue | jumpIfFalse =>
    obtain ⟨x, rfl⟩ := (o ▸ y.causes : Opcode.Causes _ e)
    rfl
  | halt =>
    obtain rfl : Opcode.Causes .halt e := o ▸ y.causes
    rfl
  | _ =>
    obtain ⟨a, v, rfl⟩ := (o ▸ y.causes : Opcode.Causes _ e)
    rfl

theorem Yields.base {e : Effect} (y : m.Yields i e) :
    (m.apply e).base.toInt =
      if i.opcode = .adjustBase then m.base.toInt + (m.value i 0).toInt else m.base.toInt := by
  cases o : i.opcode with
  | adjustBase =>
    obtain ⟨b, rfl⟩ : Opcode.Causes .adjustBase e := o ▸ y.causes
    rw [if_pos rfl, ← y.2]
    rfl
  | output | jumpIfTrue | jumpIfFalse =>
    obtain ⟨x, rfl⟩ := (o ▸ y.causes : Opcode.Causes _ e)
    rfl
  | halt =>
    obtain rfl : Opcode.Causes .halt e := o ▸ y.causes
    rfl
  | _ =>
    obtain ⟨a, v, rfl⟩ := (o ▸ y.causes : Opcode.Causes _ e)
    rfl

/-- **An executed instruction does what the table says.** -/
theorem performs_of_lands (running : m.status = .running) {e : Effect} {c : Cell}
    (fetched : m.fetch = .ok i) (resolved : m.effect i = .ok e) (lands : m.Lands i e c) :
    m.Performs i { m.apply e with counter := c, steps := m.steps + 1, last := some i } := by
  have y := ((effect_eq_ok (fetch_eq_ok.mp fetched).1).mp resolved).2
  exact {
    written := fun _ _ target stored _ place => y.written target stored place
    kept := fun _ elsewhere => y.kept elsewhere
    input := m.input_apply e
    outputs := (m.toList_outputs_apply e).trans (congrArg _ y.emitted)
    base := y.base
    counter := (lands_iff y).mp lands
    status := running ▸ status_apply_of_effect resolved
    steps := rfl
    last := rfl }

/-! ## The statement -/

/-- **A running machine executes exactly the instructions that are ready, and performs them.**
Whatever the memory, the registers and the input: a step answers an instruction if and only if
that instruction is ready, and the machine after the step is what the table says. -/
theorem step_ok_iff_ready (m : Machine) (running : m.status = .running) (i : Instruction) :
    (m.step.1 = .ok i ↔ m.Ready i) ∧ (m.Ready i → m.Performs i m.step.2) := by
  have stepping := m.step_stepping running
  generalize m.step = result at stepping ⊢
  cases stepping with
  | @executed j e c fetched resolved lands =>
    have ready : m.Ready j := ready_iff.mpr ⟨e, c, fetched, resolved, lands⟩
    -- Both stand at the counter, so there is no other instruction to be ready.
    have same (h : m.Ready i) : j = i := by
      obtain ⟨-, -, fetched', -⟩ := ready_iff.mp h
      exact Except.ok.inj (fetched.symm.trans fetched')
    refine ⟨⟨fun h => Except.ok.inj h ▸ ready, fun h => congrArg _ (same h)⟩, fun h => ?_⟩
    obtain rfl := same h
    exact performs_of_lands running fetched resolved lands
  | refused failed =>
    have unready : ¬ m.Ready i := fun h => by
      obtain ⟨e, -, fetched, resolved, -⟩ := ready_iff.mp h
      rw [fetched] at failed
      cases resolved.symm.trans failed
    exact ⟨⟨fun h => (by cases h), fun h => (unready h).elim⟩, fun h => (unready h).elim⟩
  | stranded fetched resolved stays stuck =>
    -- The effect is there, but where the machine should land does not fit into a cell.
    have unready : ¬ m.Ready i := fun h => by
      obtain ⟨e, c, fetched', -, lands⟩ := ready_iff.mp h
      obtain rfl := Except.ok.inj (fetched.symm.trans fetched')
      rw [Lands, stays, if_neg (by decide), stuck] at lands
      cases lands
    exact ⟨⟨fun h => (by cases h), fun h => (unready h).elim⟩, fun h => (unready h).elim⟩

/-- The instruction `1101, 2, 3, 0` adds two immediate numbers and writes the sum over itself. -/
theorem self_overwriting_performs :
    (load [1101, 2, 3, 0] none).status = .running ∧
      (load [1101, 2, 3, 0] none).Ready ⟨.add, 1, 1, 0⟩ ∧
      (load [1101, 2, 3, 0] none).Performs ⟨.add, 1, 1, 0⟩ (load [1101, 2, 3, 0] none).step.2 := by
  have running : (load [1101, 2, 3, 0] none).status = .running := rfl
  have steps : (load [1101, 2, 3, 0] none).step.1 = .ok ⟨.add, 1, 1, 0⟩ := rfl
  obtain ⟨iff, performs⟩ := step_ok_iff_ready _ running ⟨.add, 1, 1, 0⟩
  exact ⟨running, iff.mp steps, performs (iff.mp steps)⟩

end Machine
end IntcodeMachine
