/-!
# Cells

A cell of the machine is a signed 64-bit integer. Arithmetic on cells is exact:
a sum or product outside the 64-bit range has no value, it never wraps.
`ofInt?_eq_some` characterises the range, `add?_eq_some` and `mul?_eq_some`
say that the operations are those of the integers wherever they have a value.
-/
namespace IntcodeMachine

/-- A memory cell, register or output of the machine. -/
abbrev Cell := Int64

namespace Cell

/-- The least integer a cell holds. -/
def least : Int := -9223372036854775808

/-- The greatest integer a cell holds. -/
def greatest : Int := 9223372036854775807

/-- The cell with value `n`, if `n` is in range. -/
def ofInt? (n : Int) : Option Cell :=
  if least ≤ n ∧ n ≤ greatest then some (Int64.ofInt n) else none

/-- The exact sum. -/
def add? (a b : Cell) : Option Cell := ofInt? (a.toInt + b.toInt)

/-- The exact product. -/
def mul? (a b : Cell) : Option Cell := ofInt? (a.toInt * b.toInt)

/-- A truth value as a cell. -/
def ofBool (b : Bool) : Cell := if b then 1 else 0

theorem least_le (a : Cell) : least ≤ a.toInt := a.le_toInt

theorem le_greatest (a : Cell) : a.toInt ≤ greatest := by
  have := a.toInt_lt
  unfold greatest
  omega

theorem toInt_ofInt_of_range {n : Int} (lower : least ≤ n) (upper : n ≤ greatest) :
    (Int64.ofInt n).toInt = n := by
  unfold least at lower
  unfold greatest at upper
  exact Int64.toInt_ofInt_of_le (by simpa using lower) (by omega)

theorem ofInt?_eq_some {n : Int} {a : Cell} : ofInt? n = some a ↔ a.toInt = n := by
  unfold ofInt?
  constructor
  · intro h
    split at h
    · rename_i range
      cases h
      exact toInt_ofInt_of_range range.1 range.2
    · contradiction
  · rintro rfl
    rw [if_pos ⟨least_le a, le_greatest a⟩, Int64.ofInt_toInt]

@[simp] theorem ofInt?_toInt (a : Cell) : ofInt? a.toInt = some a := ofInt?_eq_some.mpr rfl

/-- A value is missing exactly outside the 64-bit range. -/
theorem ofInt?_eq_none {n : Int} : ofInt? n = none ↔ n < least ∨ greatest < n := by
  unfold ofInt?
  split
  · rename_i range
    simp only [reduceCtorEq, false_iff, not_or, Int.not_lt]
    exact range
  · rename_i outside
    simp only [true_iff]
    omega

theorem add?_eq_some {a b c : Cell} : add? a b = some c ↔ c.toInt = a.toInt + b.toInt :=
  ofInt?_eq_some

theorem mul?_eq_some {a b c : Cell} : mul? a b = some c ↔ c.toInt = a.toInt * b.toInt :=
  ofInt?_eq_some

end Cell
end IntcodeMachine
