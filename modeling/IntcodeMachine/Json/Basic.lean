/-!
# JSON values

A JSON value, with numbers and strings kept as they are written: which numbers
and strings are acceptable is for the reader of a value to say. The lexemes of a
value are written by `Lexeme.chars`.
-/
namespace IntcodeMachine

/-- A JSON value. A string is what stands between the quotes. -/
inductive Json
  | null
  | bool (value : Bool)
  | number (written : List Char)
  | string (written : List Char)
  | array (items : List Json)
  | object (fields : List (List Char × Json))

namespace Json

/-- A lexeme: punctuation, a string, or a number or name. -/
inductive Lexeme
  | openArray
  | closeArray
  | openObject
  | closeObject
  | comma
  | colon
  | string (written : List Char)
  | word (chars : List Char)
deriving DecidableEq, Repr

/-- The characters of a lexeme. -/
def Lexeme.chars : Lexeme → List Char
  | openArray => ['[']
  | closeArray => [']']
  | openObject => ['\x7b']
  | closeObject => ['\x7d']
  | comma => [',']
  | colon => [':']
  | string written => '"' :: written ++ ['"']
  | word chars => chars

/-- The value of a hexadecimal digit. -/
def hexValue? (c : Char) : Option Nat :=
  if c.isDigit then some (c.toNat - '0'.toNat)
  else if 'a' ≤ c ∧ c ≤ 'f' then some (c.toNat - 'a'.toNat + 10)
  else if 'A' ≤ c ∧ c ≤ 'F' then some (c.toNat - 'A'.toNat + 10)
  else none

/-- The number with four hexadecimal digits. -/
def hexValue4? (a b c d : Char) : Option Nat := do
  return (((← hexValue? a) * 16 + (← hexValue? b)) * 16 + (← hexValue? c)) * 16 + (← hexValue? d)

/-- The character that an escape with one letter stands for. -/
def shortEscape? (c : Char) : Option Char :=
  match c with
  | '"' => some '"'
  | '\\' => some '\\'
  | '/' => some '/'
  | 'b' => some '\x08'
  | 'f' => some '\x0c'
  | 'n' => some '\n'
  | 'r' => some '\r'
  | 't' => some '\t'
  | _ => none

/-- The text of a string, after the characters `found`, which are in reverse order. Numbers above
0xffff are written as two escapes; half of such a pair is no character. -/
def textFrom (found : List Char) : List Char → Option (List Char)
  | [] => some found.reverse
  | '\\' :: 'u' :: a :: b :: c :: d :: rest =>
    match hexValue4? a b c d with
    | none => none
    | some high =>
      if 0xdc00 ≤ high ∧ high ≤ 0xdfff then none
      else if 0xd800 ≤ high ∧ high ≤ 0xdbff then
        match rest with
        | '\\' :: 'u' :: e :: f :: g :: h :: rest =>
          match hexValue4? e f g h with
          | none => none
          | some low =>
            if 0xdc00 ≤ low ∧ low ≤ 0xdfff then
              textFrom (Char.ofNat (0x10000 + (high - 0xd800) * 0x400 + (low - 0xdc00)) :: found) rest
            else none
        | _ => none
      else textFrom (Char.ofNat high :: found) rest
  | '\\' :: c :: rest =>
    match shortEscape? c with
    | some value => textFrom (value :: found) rest
    | none => none
  | c :: rest => if c = '\\' then none else textFrom (c :: found) rest

/-- The text of a string. -/
def text? (written : List Char) : Option (List Char) := textFrom [] written

/-- The digits before the first character that is none, and the rest. -/
def spanDigits (chars : List Char) : List Char × List Char := chars.span Char.isDigit

/-- Nothing, or a point and digits, and then nothing, or an exponent. -/
def isFraction (chars : List Char) : Bool :=
  match chars with
  | '.' :: rest =>
    let (digits, rest) := spanDigits rest
    !digits.isEmpty && isExponent rest
  | _ => isExponent chars
where
  /-- Nothing, or the mark of an exponent, one optional sign and digits. -/
  isExponent : List Char → Bool
    | [] => true
    | c :: rest =>
      let rest := match rest with
        | '+' :: rest | '-' :: rest => rest
        | _ => rest
      (c == 'e' || c == 'E') && !rest.isEmpty && rest.all Char.isDigit

/-- The characters without a minus sign in front. -/
def unsigned : List Char → List Char
  | '-' :: rest => rest
  | chars => chars

/-- The digits are one zero or start with another digit. -/
def isPlain (digits : List Char) : Bool :=
  !digits.isEmpty && (digits.length == 1 || digits.head? != some '0')

/-- The characters are a JSON number. -/
def isNumber (chars : List Char) : Bool :=
  let (digits, rest) := spanDigits (unsigned chars)
  isPlain digits && isFraction rest

/-- The natural number that plain digits denote. -/
def natural? (chars : List Char) : Option Nat :=
  if isPlain chars && chars.all Char.isDigit then some (Nat.ofDigitChars 10 chars 0) else none

/-- The integer that a number denotes, if it is written as one. Zero has no sign. -/
def integer? (chars : List Char) : Option Int :=
  match chars with
  | '-' :: digits =>
    match natural? digits with
    | some (n + 1) => some (-(n + 1 : Nat))
    | _ => none
  | digits => (natural? digits).map Int.ofNat

end Json
end IntcodeMachine
