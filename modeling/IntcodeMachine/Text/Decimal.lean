import IntcodeMachine.Cell

/-!
# Decimal integers

`Decimal.text` writes an integer with no superfluous character. `Decimal.read`
takes one optional sign and any number of leading zeros, and reads from left to
right: the first character that is no digit, or whose digit leaves the range of
a cell, decides the error.
-/
namespace IntcodeMachine.Decimal

/-- The digits of a natural number, most significant first. -/
def digits (n : Nat) : List Char := Nat.toDigits 10 n

/-- The characters of an integer. -/
def chars (n : Int) : List Char :=
  if n < 0 then '-' :: digits n.natAbs else digits n.natAbs

/-- The text of an integer. -/
def text (n : Int) : String := String.ofList (chars n)

/-- Digits of a natural number, filled up with zeros to a least width. -/
def padded (width n : Nat) : List Char :=
  let found := digits n
  List.replicate (width - found.length) '0' ++ found

/-- Why a text is not a cell. -/
inductive ReadError
  | empty
  | invalidDigit
  | tooLarge
  | tooSmall
deriving DecidableEq, Repr

/-- The wording of a reading error. -/
def ReadError.message : ReadError → String
  | .empty => "cannot parse integer from empty string"
  | .invalidDigit => "invalid digit found in string"
  | .tooLarge => "number too large to fit in target type"
  | .tooSmall => "number too small to fit in target type"

/-- The value of a digit character. -/
def digitValue (c : Char) : Nat := c.toNat - '0'.toNat

/-- Reads digits onto the value `found` of those before them, away from zero in the direction
of the sign. -/
def readDigits (negative : Bool) : Int → List Char → Except ReadError Int
  | found, [] => .ok found
  | found, c :: rest =>
    if c.isDigit then
      let next := if negative then found * 10 - digitValue c else found * 10 + digitValue c
      if Cell.greatest < next then .error .tooLarge
      else if next < Cell.least then .error .tooSmall
      else readDigits negative next rest
    else .error .invalidDigit

/-- Reads the digits after a sign; a sign needs one at least. -/
def readSigned (negative : Bool) : List Char → Except ReadError Int
  | [] => .error .invalidDigit
  | c :: rest => readDigits negative 0 (c :: rest)

/-- Reads an integer in the range of a cell. -/
def read : List Char → Except ReadError Cell
  | [] => .error .empty
  | '+' :: rest => (readSigned false rest).map Int64.ofInt
  | '-' :: rest => (readSigned true rest).map Int64.ofInt
  | c :: rest => (readSigned false (c :: rest)).map Int64.ofInt

end IntcodeMachine.Decimal

namespace IntcodeMachine.Cell

/-- The decimal text of a cell. -/
def text (c : Cell) : String := Decimal.text c.toInt

end IntcodeMachine.Cell
