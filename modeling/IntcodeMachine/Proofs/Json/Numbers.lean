import IntcodeMachine.Json.Reader
import IntcodeMachine.Text.Decimal
import Mathlib.Data.List.TakeDrop
import Mathlib.Data.List.TakeWhile

/-! # Integers as JSON numbers

The decimal characters of an integer are a JSON number (`isNumber_chars`), and the
integer can be read off them again (`integer?_chars`), however large it is, so that
different integers have different characters (`chars_injective`).  The one thing to
see is that digits are plain, without a superfluous zero in front (`isPlain_digits`):
the first digit of a number is that of its tenth part.
-/
namespace IntcodeMachine.Json

open Decimal (digits chars)

variable {c : Char} {n : Nat}

theorem isDigit_of_mem_digits (h : c ∈ digits n) : c.isDigit :=
  Nat.isDigit_of_mem_toDigits (by decide) (by decide) h

theorem digits_ne_nil (n : Nat) : digits n ≠ [] := Nat.toDigits_ne_nil

theorem head?_digits_ne_zero (positive : 0 < n) : (digits n).head? ≠ some '0' := by
  induction n using Nat.strongRecOn with
  | ind n ih =>
    rw [digits, Nat.toDigits_eq_if (by decide)]
    split
    · rename_i small
      have : ∀ k < 10, 0 < k → Nat.digitChar k ≠ '0' := by decide
      exact fun h => this n small positive (Option.some.inj h)
    · -- The last digit comes behind those of `n / 10`, so the first one is theirs.
      have more := ih (n / 10) (by omega) (by omega)
      obtain ⟨d, rest, h⟩ := List.exists_cons_of_ne_nil (digits_ne_nil (n / 10))
      rw [h] at more
      rw [← digits, h]
      exact more

/-- **Digits have no superfluous zero.** -/
theorem isPlain_digits (n : Nat) : isPlain (digits n) = true := by
  rcases Nat.eq_zero_or_pos n with rfl | positive
  · rfl
  · simp [isPlain, digits_ne_nil, head?_digits_ne_zero positive]

@[simp] theorem natural?_digits (n : Nat) : natural? (digits n) = some n := by
  have only : (digits n).all Char.isDigit = true :=
    List.all_eq_true.mpr fun _ h => isDigit_of_mem_digits h
  rw [natural?, isPlain_digits, only, digits, Nat.ofDigitChars_ten_toDigits]
  rfl

/-- Digits begin with a digit. -/
theorem digits_eq_cons (n : Nat) : ∃ d rest, digits n = d :: rest ∧ d ≠ '-' := by
  obtain ⟨d, rest, h⟩ := List.exists_cons_of_ne_nil (digits_ne_nil n)
  refine ⟨d, rest, h, ?_⟩
  rintro rfl
  exact absurd (isDigit_of_mem_digits (h ▸ List.mem_cons_self)) (by decide)

theorem unsigned_digits (n : Nat) : unsigned (digits n) = digits n := by
  obtain ⟨d, rest, h, no_sign⟩ := digits_eq_cons n
  rw [h, unsigned]
  rintro _ h
  cases h
  contradiction

theorem unsigned_chars (z : Int) : unsigned (chars z) = digits z.natAbs := by
  unfold chars
  split
  · rfl
  · exact unsigned_digits _

/-- **The characters of an integer are a JSON number.** -/
theorem isNumber_chars (z : Int) : isNumber (chars z) = true := by
  have only : ∀ c ∈ digits z.natAbs, c.isDigit = true := fun _ h => isDigit_of_mem_digits h
  have spans : spanDigits (digits z.natAbs) = (digits z.natAbs, []) := by
    rw [spanDigits, List.span_eq_takeWhile_dropWhile, List.takeWhile_eq_self_iff.mpr only,
      List.dropWhile_eq_nil_iff.mpr only]
  rw [isNumber, unsigned_chars, spans]
  simp only [isPlain_digits]
  rfl

/-- **An integer can be read off its characters.** -/
@[simp] theorem integer?_chars (z : Int) : integer? (chars z) = some z := by
  unfold chars
  split
  · obtain ⟨k, hk⟩ : ∃ k, z.natAbs = k + 1 := ⟨z.natAbs - 1, by omega⟩
    rw [integer?, natural?_digits, hk]
    simp only [Option.some.injEq]
    omega
  · obtain ⟨d, rest, h, no_sign⟩ := digits_eq_cons z.natAbs
    rw [h, integer?, ← h, natural?_digits]
    · exact congrArg some (Int.natAbs_of_nonneg (Int.not_lt.mp ‹_›))
    · rintro _ sign
      cases sign
      contradiction

/-- **Different integers have different characters.** -/
theorem chars_injective : Function.Injective chars := by
  intro z z' same
  have numbers := congrArg integer? same
  rw [integer?_chars, integer?_chars] at numbers
  exact Option.some.inj numbers

/-! ## As words -/

theorem isWordChar_of_isDigit (h : c.isDigit) : isWordChar c = true := by
  simp [isWordChar, Char.isAlphanum, h]

/-- The characters of an integer are digits and perhaps a sign. -/
theorem isDigit_of_mem_chars {z : Int} (h : c ∈ chars z) : c = '-' ∨ c.isDigit = true := by
  unfold chars at h
  split at h
  · exact (List.mem_cons.mp h).imp_right isDigit_of_mem_digits
  · exact .inr (isDigit_of_mem_digits h)

theorem isWordChar_of_mem_chars {z : Int} (h : c ∈ chars z) : isWordChar c = true := by
  rcases isDigit_of_mem_chars h with rfl | digit
  · decide
  · exact isWordChar_of_isDigit digit

theorem not_mem_chars (other : ¬ (c = '-' ∨ c.isDigit = true)) (z : Int) : c ∉ chars z :=
  mt isDigit_of_mem_chars other

theorem chars_ne_nil (z : Int) : chars z ≠ [] := by
  unfold chars
  split
  · exact List.cons_ne_nil _ _
  · exact digits_ne_nil _

end IntcodeMachine.Json
