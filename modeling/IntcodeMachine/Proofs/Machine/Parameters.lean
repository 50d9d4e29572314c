import IntcodeMachine.Machine.Step
import IntcodeMachine.Proofs.Memory.Reads
import IntcodeMachine.Proofs.Returning

/-! # What parameters denote

The machine resolves a parameter by a chain of steps that may each fail: the cell
of the parameter, its mode digit, the base, the address.  This module says in
integers when the whole chain succeeds (`Resolves`) and what it gives: the value
of a source (`source_eq_ok`) or the place that a target names (`target_eq_ok`).

Memory is consulted only through `lookUp`, a read whose error is a fault: once for
the instruction (`fetch_eq`), once for each parameter (`parameter_eq`), and once
more for a source that is not immediate (`source_eq`).
-/
namespace IntcodeMachine

theorem Fault.orOverflow_eq_ok {value : Option Cell} {c : Cell} :
    Fault.orOverflow value = .ok c ↔ value = some c := by
  cases value <;> simp [Fault.orOverflow]

namespace Cell

/-- The integer is the value of a cell. -/
def Fits (n : Int) : Prop := least ≤ n ∧ n ≤ greatest

theorem fits_toInt (c : Cell) : Fits c.toInt := ⟨least_le c, le_greatest c⟩

theorem toInt_ofBool (b : Bool) : (ofBool b).toInt = if b then 1 else 0 := by cases b <;> rfl

theorem fits_iff {n : Int} : Fits n ↔ ∃ c : Cell, c.toInt = n :=
  ⟨fun h => ⟨Int64.ofInt n, toInt_ofInt_of_range h.1 h.2⟩, fun ⟨c, hc⟩ => hc ▸ fits_toInt c⟩

end Cell

namespace Machine

open Fault (addressOf orOverflow)

/-- What memory reads as where an instruction looks. -/
def lookUp (m : Machine) (c : Cell) : Except Fault Cell := (m.memory.read c).mapError .address

section LookUp
variable (m : Machine)

theorem lookUp_eq : m.lookUp = fun c => do return m.memory.cellAt (← addressOf c) := by
  funext c
  rw [lookUp, Memory.read, addressOf]
  cases Memory.addressOf c <;> rfl

theorem fetch_eq :
    m.fetch = m.lookUp m.counter >>= fun cell => (Instruction.decode cell).mapError .decode := by
  simp only [lookUp_eq, fetch, bind_assoc, pure_bind]

theorem parameter_eq (index : Nat) :
    m.parameter index =
      orOverflow (Cell.ofInt? (m.counter.toInt + (1 + index))) >>= m.lookUp := by
  rw [lookUp_eq, parameter]

theorem source_eq (i : Instruction) (index : Nat) :
    m.source i index = m.parameter index >>= fun raw =>
      (i.mode index).mapError .decode >>= fun
        | .position => m.lookUp raw
        | .immediate => .ok raw
        | .relative => m.relative raw >>= m.lookUp := by
  rw [lookUp_eq, source]
  congr 1

theorem lookUp_eq_ok {m : Machine} {c v : Cell} :
    m.lookUp c = .ok v ↔ 0 ≤ c.toInt ∧ v = m.memory.view c.toInt := by
  rw [lookUp, mapError_eq_ok, Memory.read_eq_ok]

end LookUp

/-! ## Resolution in integers -/

section Resolution
variable (m : Machine) (i : Instruction) (index : Nat)

/-- The cell of a parameter. -/
def raw : Cell := m.memory.view (m.counter.toInt + 1 + index)

/-- Where a parameter points to: to itself, or that far beyond the relative base. -/
def place : Int :=
  if i.modes.get index = 2 then (m.raw index).toInt + m.base.toInt else (m.raw index).toInt

/-- The value that a source denotes. -/
def value : Cell :=
  if i.modes.get index = 1 then m.raw index else m.memory.view (m.place i index)

end Resolution

end Machine

/-- The mode digits that are legal for a role. -/
def Role.Admits (digit : UInt8) : Role → Prop
  | .source => digit = 0 ∨ digit = 1 ∨ digit = 2
  | .target => digit = 0 ∨ digit = 2

namespace Machine

/-- **A parameter can be resolved**: its cell has an address, its mode digit is legal for its role,
and what it points to, if anything, is an address too. -/
structure Resolves (m : Machine) (i : Instruction) (index : Nat) (role : Role) : Prop where
  inside : m.counter.toInt + 1 + index ≤ Cell.greatest
  legal : role.Admits (i.modes.get index)
  placed : i.modes.get index ≠ 1 → 0 ≤ m.place i index ∧ m.place i index ≤ Cell.greatest

theorem mode_eq_ok {i : Instruction} {index : Nat} {role : Role} {mode : Mode}
    (h : i.opcode.roles[index]? = some role) :
    i.mode index = .ok mode ↔
      i.modes.get index = 0 ∧ mode = .position ∨
      i.modes.get index = 1 ∧ role = .source ∧ mode = .immediate ∨
      i.modes.get index = 2 ∧ mode = .relative := by
  rw [Instruction.mode, h]
  simp only [Mode.ofDigit]
  by_cases h0 : i.modes.get index = 0
  · simp [h0, eq_comm]
  by_cases h1 : i.modes.get index = 1
  · cases role <;> simp [h1, eq_comm]
  by_cases h2 : i.modes.get index = 2
  · simp [h2, eq_comm]
  simp [h0, h1, h2]

section Laws
variable {m : Machine} {i : Instruction} {index : Nat}

theorem parameter_eq_ok (hc : 0 ≤ m.counter.toInt) {v : Cell} :
    m.parameter index = .ok v ↔
      m.counter.toInt + 1 + index ≤ Cell.greatest ∧ v = m.raw index := by
  rw [parameter_eq, bind_eq_ok]
  simp only [Fault.orOverflow_eq_ok, Cell.ofInt?_eq_some, lookUp_eq_ok]
  constructor
  · rintro ⟨c, hc', -, rfl⟩
    have := Cell.le_greatest c
    exact ⟨by omega, by rw [hc', ← Int.add_assoc]; rfl⟩
  · rintro ⟨hle, rfl⟩
    obtain ⟨c, hc'⟩ := Cell.fits_iff.mp ⟨by unfold Cell.least; omega, hle⟩
    exact ⟨c, by omega, by omega, by rw [hc']; rfl⟩

theorem relative_eq_ok {offset c : Cell} :
    m.relative offset = .ok c ↔ c.toInt = offset.toInt + m.base.toInt := by
  rw [relative, Fault.orOverflow_eq_ok, Cell.add?_eq_some]

theorem relative_lookUp_eq_ok {offset v : Cell} :
    (m.relative offset >>= m.lookUp) = .ok v ↔
      0 ≤ offset.toInt + m.base.toInt ∧ offset.toInt + m.base.toInt ≤ Cell.greatest ∧
        v = m.memory.view (offset.toInt + m.base.toInt) := by
  simp only [bind_eq_ok, relative_eq_ok, lookUp_eq_ok]
  constructor
  · rintro ⟨c, hc, hnonneg, rfl⟩
    exact ⟨by omega, hc ▸ Cell.le_greatest c, by rw [hc]⟩
  · rintro ⟨hnonneg, hle, rfl⟩
    obtain ⟨c, hc⟩ := Cell.fits_iff.mp ⟨by unfold Cell.least; omega, hle⟩
    exact ⟨c, hc, by omega, by rw [hc]⟩

theorem place_position (h : i.modes.get index = 0) : m.place i index = (m.raw index).toInt :=
  if_neg (by rw [h]; decide)

theorem place_relative (h : i.modes.get index = 2) :
    m.place i index = (m.raw index).toInt + m.base.toInt := if_pos h

theorem value_immediate (h : i.modes.get index = 1) : m.value i index = m.raw index := if_pos h

theorem value_placed (h : i.modes.get index ≠ 1) :
    m.value i index = m.memory.view (m.place i index) := if_neg h

/-- **A source is resolved to its value.** -/
theorem source_eq_ok (hc : 0 ≤ m.counter.toInt) (h : i.opcode.roles[index]? = some .source)
    {v : Cell} :
    m.source i index = .ok v ↔ m.Resolves i index .source ∧ v = m.value i index := by
  rw [source_eq, bind_eq_ok]
  simp only [parameter_eq_ok hc, bind_eq_ok, mapError_eq_ok, mode_eq_ok h]
  -- One case for each mode: position, immediate, relative.
  constructor
  · rintro ⟨_, ⟨inside, rfl⟩, mode, ⟨hd, rfl⟩ | ⟨hd, -, rfl⟩ | ⟨hd, rfl⟩, hv⟩
    · obtain ⟨hnonneg, rfl⟩ := lookUp_eq_ok.mp hv
      have hp := place_position (m := m) hd
      refine ⟨⟨inside, .inl hd, fun _ => ?_⟩, ?_⟩
      · rw [hp]
        exact ⟨hnonneg, Cell.le_greatest _⟩
      · rw [value_placed (by rw [hd]; decide), hp]
    · cases hv
      exact ⟨⟨inside, .inr (.inl hd), fun hne => absurd hd hne⟩, (value_immediate hd).symm⟩
    · obtain ⟨hnonneg, hle, rfl⟩ := relative_lookUp_eq_ok.mp hv
      have hp := place_relative (m := m) hd
      refine ⟨⟨inside, .inr (.inr hd), fun _ => ?_⟩, ?_⟩
      · rw [hp]
        exact ⟨hnonneg, hle⟩
      · rw [value_placed (by rw [hd]; decide), hp]
  · rintro ⟨⟨inside, hd | hd | hd, placed⟩, rfl⟩
    · refine ⟨_, ⟨inside, rfl⟩, .position, .inl ⟨hd, rfl⟩, lookUp_eq_ok.mpr ?_⟩
      have hne : i.modes.get index ≠ 1 := by rw [hd]; decide
      rw [value_placed hne, ← place_position (m := m) hd]
      exact ⟨(placed hne).1, rfl⟩
    · exact ⟨_, ⟨inside, rfl⟩, .immediate, .inr (.inl ⟨hd, trivial, rfl⟩),
        congrArg _ (value_immediate hd).symm⟩
    · refine ⟨_, ⟨inside, rfl⟩, .relative, .inr (.inr ⟨hd, rfl⟩), relative_lookUp_eq_ok.mpr ?_⟩
      have hne : i.modes.get index ≠ 1 := by rw [hd]; decide
      rw [value_placed hne, ← place_relative (m := m) hd]
      exact ⟨(placed hne).1, (placed hne).2, rfl⟩

/-- **A target is resolved to the address of its place.** -/
theorem target_eq_ok (hc : 0 ≤ m.counter.toInt) (h : i.opcode.roles[index]? = some .target)
    {a : UInt64} :
    m.target i index = .ok a ↔
      m.Resolves i index .target ∧
        ∃ t : Cell, t.toInt = m.place i index ∧ Memory.addressOf t = .ok a := by
  rw [target, bind_eq_ok]
  simp only [parameter_eq_ok hc, bind_eq_ok, mapError_eq_ok, mode_eq_ok h]
  constructor
  · rintro ⟨_, ⟨inside, rfl⟩, mode, ⟨hd, rfl⟩ | ⟨-, hr, -⟩ | ⟨hd, rfl⟩, ha⟩
    · have ha := mapError_eq_ok.mp ha
      have hp := place_position (m := m) hd
      refine ⟨⟨inside, .inl hd, fun _ => ?_⟩, _, hp.symm, ha⟩
      rw [hp]
      exact ⟨(Memory.addressOf_eq_ok.mp ha).1, Cell.le_greatest _⟩
    · -- A target is never immediate.
      cases hr
    · obtain ⟨t, ht, ha⟩ := bind_eq_ok.mp ha
      have ht := relative_eq_ok.mp ht
      have ha := mapError_eq_ok.mp ha
      have hp := place_relative (m := m) hd
      refine ⟨⟨inside, .inr hd, fun _ => ?_⟩, t, ht.trans hp.symm, ha⟩
      rw [hp, ← ht]
      exact ⟨(Memory.addressOf_eq_ok.mp ha).1, Cell.le_greatest _⟩
  · rintro ⟨⟨inside, hd | hd, -⟩, t, ht, ha⟩
    · rw [place_position hd] at ht
      obtain rfl : t = m.raw index := Int64.toInt_inj.mp ht
      exact ⟨_, ⟨inside, rfl⟩, .position, .inl ⟨hd, rfl⟩, mapError_eq_ok.mpr ha⟩
    · rw [place_relative hd] at ht
      exact ⟨_, ⟨inside, rfl⟩, .relative, .inr (.inr ⟨hd, rfl⟩),
        bind_eq_ok.mpr ⟨t, relative_eq_ok.mpr ht, mapError_eq_ok.mpr ha⟩⟩

theorem following_eq_ok {c : Cell} :
    m.following i = .ok c ↔ c.toInt = m.counter.toInt + i.width := by
  rw [following, Fault.orOverflow_eq_ok, Cell.ofInt?_eq_some]

theorem fetch_eq_ok :
    m.fetch = .ok i ↔
      0 ≤ m.counter.toInt ∧ Instruction.decode (m.memory.view m.counter.toInt) = .ok i := by
  rw [fetch_eq, bind_eq_ok]
  simp only [lookUp_eq_ok, mapError_eq_ok]
  exact ⟨fun ⟨_, ⟨hc, hv⟩, hi⟩ => ⟨hc, hv ▸ hi⟩, fun ⟨hc, hi⟩ => ⟨_, ⟨hc, rfl⟩, hi⟩⟩

end Laws

end Machine
end IntcodeMachine
