import IntcodeMachine.Text.Unprintable

/-!
# Quoted text

Text shown in double quotes, such that every character is visible: quotes,
backslashes and the common control characters have a short escape, every other
unprintable character is shown by its number in hexadecimal.
-/
namespace IntcodeMachine.Text

/-- A character inside quotes. -/
def escape (c : Char) : List Char :=
  if c = '"' then ['\\', '"']
  else if c = '\\' then ['\\', '\\']
  else if c = '\n' then ['\\', 'n']
  else if c = '\r' then ['\\', 'r']
  else if c = '\t' then ['\\', 't']
  else if c = '\x00' then ['\\', '0']
  else if isUnprintable c then ['\\', 'u', '\x7b'] ++ Nat.toDigits 16 c.toNat ++ ['\x7d']
  else [c]

/-- The text in quotes. -/
def quote (text : List Char) : List Char := '"' :: text.flatMap escape ++ ['"']

end IntcodeMachine.Text
