import IntcodeMachine.Json.Basic

/-!
# Reading JSON

Text is cut into lexemes and lexemes are put together to a value, both from left
to right and each by one pass: the first keeps the lexeme that has begun, the
second the arrays and objects that are open.
-/
namespace IntcodeMachine.Json

/-! ## Lexemes -/

/-- What the characters read last belong to. Lexemes that have begun are in reverse order. -/
inductive Scan
  | gap
  | word (found : List Char)
  | string (found : List Char)
  | escape (found : List Char)
  | hex (found : List Char) (missing : Nat)
deriving DecidableEq, Repr

/-- The characters between lexemes. -/
def isSpace (c : Char) : Bool := c == ' ' || c == '\t' || c == '\n' || c == '\r'

/-- The characters of numbers and names. -/
def isWordChar (c : Char) : Bool := c.isAlphanum || c == '+' || c == '-' || c == '.'

/-- Punctuation. -/
def punctuation? (c : Char) : Option Lexeme :=
  match c with
  | '[' => some .openArray
  | ']' => some .closeArray
  | '\x7b' => some .openObject
  | '\x7d' => some .closeObject
  | ',' => some .comma
  | ':' => some .colon
  | _ => none

/-- A character that begins something. -/
def begin (c : Char) (found : List Lexeme) : Option (Scan × List Lexeme) :=
  if isSpace c then some (.gap, found)
  else if c = '"' then some (.string [], found)
  else if isWordChar c then some (.word [c], found)
  else (punctuation? c).map fun l => (.gap, l :: found)

/-- One character more. Strings hold no control characters and only the known escapes. -/
def scan (state : Scan) (c : Char) (found : List Lexeme) : Option (Scan × List Lexeme) :=
  match state with
  | .gap => begin c found
  | .word chars =>
    if isWordChar c then some (.word (c :: chars), found)
    else begin c (.word chars.reverse :: found)
  | .string chars =>
    if c = '"' then some (.gap, .string chars.reverse :: found)
    else if c = '\\' then some (.escape (c :: chars), found)
    else if c.toNat < 0x20 then none
    else some (.string (c :: chars), found)
  | .escape chars =>
    if c = 'u' then some (.hex (c :: chars) 4, found)
    else if (shortEscape? c).isSome then some (.string (c :: chars), found)
    else none
  | .hex chars missing =>
    if (hexValue? c).isNone then none
    else if missing = 1 then some (.string (c :: chars), found)
    else some (.hex (c :: chars) (missing - 1), found)

/-- The lexemes of a text that goes on in a state, after those found, which are in reverse
order. -/
def lexemesFrom (state : Scan) (found : List Lexeme) : List Char → Option (List Lexeme)
  | [] =>
    match state with
    | .gap => some found.reverse
    | .word chars => some (.word chars.reverse :: found).reverse
    | _ => none
  | c :: rest =>
    match scan state c found with
    | some (state, found) => lexemesFrom state found rest
    | none => none

/-- The lexemes of a text. -/
def lexemes? (text : List Char) : Option (List Lexeme) := lexemesFrom .gap [] text

/-! ## Values -/

/-- An array or object that is open. Its items or fields are in reverse order; the value of the
last key of an object is to come. -/
inductive Frame
  | array (items : List Json)
  | object (fields : List (List Char × Json)) (key : List Char)

/-- What may come next: a value; a value or the end of an empty array; a key or the end of an
empty object; a key after fields; a colon after a key; or, a value being complete, what follows
it. -/
inductive Phase
  | value
  | firstItem
  | firstKey
  | key (fields : List (List Char × Json))
  | colon (fields : List (List Char × Json)) (key : List Char)
  | complete (value : Json)

/-- The value of a number or name. -/
def ofWord? (chars : List Char) : Option Json :=
  if chars = ['n', 'u', 'l', 'l'] then some .null
  else if chars = ['t', 'r', 'u', 'e'] then some (.bool true)
  else if chars = ['f', 'a', 'l', 's', 'e'] then some (.bool false)
  else if isNumber chars then some (.number chars)
  else none

/-- The beginning of a value. -/
def beginValue (stack : List Frame) : Lexeme → Option (Phase × List Frame)
  | .openArray => some (.firstItem, stack)
  | .openObject => some (.firstKey, stack)
  | .string written => some (.complete (.string written), stack)
  | .word chars => (ofWord? chars).map fun v => (.complete v, stack)
  | _ => none

/-- One lexeme more. -/
def build (phase : Phase) (stack : List Frame) (l : Lexeme) : Option (Phase × List Frame) :=
  match phase, l, stack with
  | .value, l, stack => beginValue stack l
  | .firstItem, .closeArray, stack => some (.complete (.array []), stack)
  | .firstItem, l, stack => beginValue (.array [] :: stack) l
  | .firstKey, .closeObject, stack => some (.complete (.object []), stack)
  | .firstKey, .string key, stack => some (.colon [] key, stack)
  | .key fields, .string key, stack => some (.colon fields key, stack)
  | .colon fields key, .colon, stack => some (.value, .object fields key :: stack)
  | .complete v, .comma, .array items :: stack => some (.value, .array (v :: items) :: stack)
  | .complete v, .closeArray, .array items :: stack =>
    some (.complete (.array (v :: items).reverse), stack)
  | .complete v, .comma, .object fields key :: stack => some (.key ((key, v) :: fields), stack)
  | .complete v, .closeObject, .object fields key :: stack =>
    some (.complete (.object ((key, v) :: fields).reverse), stack)
  | _, _, _ => none

/-- The value that lexemes complete. -/
def valueFrom (phase : Phase) (stack : List Frame) : List Lexeme → Option Json
  | [] =>
    match phase, stack with
    | .complete v, [] => some v
    | _, _ => none
  | l :: rest =>
    match build phase stack l with
    | some (phase, stack) => valueFrom phase stack rest
    | none => none

/-- The value that lexemes form. -/
def ofLexemes? (lexemes : List Lexeme) : Option Json := valueFrom .value [] lexemes

/-- The value of a text. -/
def parse? (text : String) : Option Json := do ofLexemes? (← lexemes? text.toList)

end IntcodeMachine.Json
