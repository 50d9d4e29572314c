import IntcodeMachine.Text.Decimal

/-! # Decimal literals

A literal is an optional sign and at least one digit (`Literal`).  `read` accepts
exactly the literals of integers that a cell can hold, and answers that integer
(`read_eq_ok`).  It gives up at the first digit that leaves the range, so one has
to know that no later digit leads back: digits only take a number further away
from zero (`le_ofDigitChars`).
-/
namespace IntcodeMachine.Decimal

variable {item ds : List Char} {c : Cell}

/-- Digits, and at least one of them. -/
def AllDigits (ds : List Char) : Prop := ds ≠ [] ∧ ∀ d ∈ ds, d.isDigit = true

/-- **The text is a decimal literal of the integer.** -/
inductive Literal : List Char → Int → Prop
  | unsigned {ds : List Char} (digits : AllDigits ds) : Literal ds (Nat.ofDigitChars 10 ds 0)
  | plus {ds : List Char} (digits : AllDigits ds) :
      Literal ('+' :: ds) (Nat.ofDigitChars 10 ds 0)
  | minus {ds : List Char} (digits : AllDigits ds) :
      Literal ('-' :: ds) (-Nat.ofDigitChars 10 ds 0)

/-- A natural number on the side of zero that a sign tells. -/
def signed (negative : Bool) (n : Nat) : Int := if negative then -n else n

/-- Digits that follow lead away from zero. -/
theorem le_ofDigitChars (ds : List Char) (init : Nat) : init ≤ Nat.ofDigitChars 10 ds init := by
  induction ds generalizing init with
  | nil => exact Nat.le_refl _
  | cons d ds ih =>
    rw [Nat.ofDigitChars_cons]
    have := ih (10 * init + (d.toNat - '0'.toNat))
    omega

/-- **Reading digits gives their number**, provided that it is in the range of a cell. -/
theorem readDigits_eq_ok {negative : Bool} {init : Nat} {n : Int}
    (lower : Cell.least ≤ signed negative init) (upper : signed negative init ≤ Cell.greatest) :
    readDigits negative (signed negative init) ds = .ok n ↔
      (∀ d ∈ ds, d.isDigit = true) ∧ n = signed negative (Nat.ofDigitChars 10 ds init) ∧
        Cell.least ≤ n ∧ n ≤ Cell.greatest := by
  induction ds generalizing init with
  | nil =>
    rw [readDigits, Except.ok.injEq]
    constructor
    · rintro rfl
      exact ⟨by simp, rfl, lower, upper⟩
    · rintro ⟨-, h, -⟩
      exact h.symm
  | cons d ds ih =>
    rw [readDigits]
    by_cases digit : d.isDigit = true
    · have next : (if negative = true then signed negative init * 10 - digitValue d
          else signed negative init * 10 + digitValue d) =
          signed negative (10 * init + digitValue d) := by
        unfold signed
        cases negative <;> simp <;> omega
      rw [if_pos digit]
      simp only [next, Nat.ofDigitChars_cons, List.forall_mem_cons, digit, true_and]
      have grows := le_ofDigitChars ds (10 * init + digitValue d)
      by_cases inside : Cell.least ≤ signed negative (10 * init + digitValue d) ∧
          signed negative (10 * init + digitValue d) ≤ Cell.greatest
      · rw [if_neg (by omega), if_neg (by omega)]
        exact ih inside.1 inside.2
      · -- The number is out of range for good, whatever digits follow.
        have outside : ∀ k, 10 * init + digitValue d ≤ k →
            ¬ (Cell.least ≤ signed negative k ∧ signed negative k ≤ Cell.greatest) := by
          intro k hk
          unfold signed Cell.least Cell.greatest at *
          cases negative <;> simp at * <;> omega
        refine iff_of_false ?_ fun ⟨_, h, range⟩ => outside _ grows (h ▸ range)
        split
        · exact fun h => by cases h
        · rw [if_pos (by omega)]
          exact fun h => by cases h
    · rw [if_neg digit]
      refine iff_of_false (fun h => by cases h) fun ⟨h, _⟩ => digit ?_
      exact h d List.mem_cons_self

/-- After a sign there are digits, and the cell is their number on the side of the sign. -/
theorem readSigned_eq_ok {negative : Bool} :
    (readSigned negative ds).map Int64.ofInt = .ok c ↔
      AllDigits ds ∧ c.toInt = signed negative (Nat.ofDigitChars 10 ds 0) := by
  cases ds with
  | nil => exact iff_of_false (fun h => by cases h) fun h => h.1.1 rfl
  | cons d ds =>
    have zero : signed negative 0 = 0 := by cases negative <;> rfl
    have reads : ∀ n, readDigits negative (signed negative 0) (d :: ds) = .ok n ↔ _ :=
      fun n => readDigits_eq_ok (by rw [zero]; decide) (by rw [zero]; decide)
    simp only [zero] at reads
    have result : (readSigned negative (d :: ds)).map Int64.ofInt = .ok c ↔
        ∃ n, readDigits negative 0 (d :: ds) = .ok n ∧ Int64.ofInt n = c := by
      rw [readSigned]
      cases readDigits negative 0 (d :: ds) <;> simp [Except.map]
    rw [result]
    constructor
    · rintro ⟨n, h, rfl⟩
      obtain ⟨digits, e, lower, upper⟩ := (reads n).mp h
      exact ⟨⟨List.cons_ne_nil _ _, digits⟩, by rw [Cell.toInt_ofInt_of_range lower upper, e]⟩
    · rintro ⟨⟨-, digits⟩, e⟩
      refine ⟨c.toInt, (reads _).mpr ⟨digits, e, Cell.least_le c, Cell.le_greatest c⟩, ?_⟩
      exact Int64.ofInt_toInt c

/-- A text without a sign is read like one with a plus. -/
theorem read_unsigned {d : Char} (plus : d ≠ '+') (minus : d ≠ '-') :
    read (d :: ds) = (readSigned false (d :: ds)).map Int64.ofInt := by
  unfold read
  split
  · contradiction
  · rename_i h
    exact absurd (List.cons.inj h).1 plus
  · rename_i h
    exact absurd (List.cons.inj h).1 minus
  · rename_i h
    rw [h]

/-- A sign is no digit. -/
theorem AllDigits.no_sign {d : Char} (h : AllDigits (d :: ds)) : d ≠ '+' ∧ d ≠ '-' := by
  have digit := h.2 d List.mem_cons_self
  constructor <;> rintro rfl <;> cases digit

/-- **A text is read if and only if it is the literal of a cell**, and that cell is the answer. -/
theorem read_eq_ok : read item = .ok c ↔ Literal item c.toInt := by
  cases item with
  | nil =>
    refine iff_of_false (fun h => by cases h) fun h => ?_
    generalize c.toInt = n at h
    cases h with
    | unsigned digits => exact digits.1 rfl
  | cons d ds =>
    by_cases plus : d = '+'
    · subst plus
      refine readSigned_eq_ok.trans ⟨fun ⟨digits, e⟩ => e ▸ .plus digits, fun h => ?_⟩
      generalize c.toInt = n at h ⊢
      cases h with
      | unsigned digits => exact absurd rfl digits.no_sign.1
      | plus digits => exact ⟨digits, rfl⟩
    by_cases minus : d = '-'
    · subst minus
      refine readSigned_eq_ok.trans ⟨fun ⟨digits, e⟩ => e ▸ .minus digits, fun h => ?_⟩
      generalize c.toInt = n at h ⊢
      cases h with
      | unsigned digits => exact absurd rfl digits.no_sign.2
      | minus digits => exact ⟨digits, rfl⟩
    rw [read_unsigned plus minus]
    refine readSigned_eq_ok.trans ⟨fun ⟨digits, e⟩ => e ▸ .unsigned digits, fun h => ?_⟩
    generalize c.toInt = n at h ⊢
    cases h with
    | unsigned digits => exact ⟨digits, rfl⟩
    | plus => contradiction
    | minus => contradiction

end IntcodeMachine.Decimal
