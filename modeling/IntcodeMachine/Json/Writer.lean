import IntcodeMachine.Json.Basic

/-!
# Writing JSON

A value is laid out as its lexemes with gaps between them. The compact style has
no gaps; the indented style has each item and field on a line of its own, two
spaces deeper than what it belongs to, and a space after each colon.
-/
namespace IntcodeMachine.Json

/-- How a value is laid out. -/
inductive Style
  | compact
  | indented
deriving DecidableEq, Repr

/-- A part of a layout. -/
inductive Part
  | gap (chars : List Char)
  | lexeme (lexeme : Lexeme)
deriving DecidableEq, Repr

/-- The characters of a part. -/
def Part.chars : Part → List Char
  | gap chars => chars
  | lexeme l => l.chars

/-- The beginning of a line at a depth. -/
def Style.line (style : Style) (depth : Nat) : List Part :=
  match style with
  | .compact => []
  | .indented => [.gap ('\n' :: List.replicate (2 * depth) ' ')]

/-- What separates a key from its value. -/
def Style.colon (style : Style) : List Part :=
  match style with
  | .compact => [.lexeme .colon]
  | .indented => [.lexeme .colon, .gap [' ']]

/-- Parts between brackets, each on a line, separated by commas. -/
def Style.enclose (style : Style) (depth : Nat) (first last : Lexeme) (inside : List (List Part)) :
    List Part :=
  match inside with
  | [] => [.lexeme first, .lexeme last]
  | inside =>
    .lexeme first :: style.line (depth + 1) ++
      (.lexeme .comma :: style.line (depth + 1)).intercalate inside ++
      style.line depth ++ [.lexeme last]

/-- The layout of a value at a depth. -/
def layout (style : Style) (depth : Nat) : Json → List Part
  | .null => [.lexeme (.word ['n', 'u', 'l', 'l'])]
  | .bool true => [.lexeme (.word ['t', 'r', 'u', 'e'])]
  | .bool false => [.lexeme (.word ['f', 'a', 'l', 's', 'e'])]
  | .number written => [.lexeme (.word written)]
  | .string written => [.lexeme (.string written)]
  | .array items =>
    style.enclose depth .openArray .closeArray (items.map fun v => layout style (depth + 1) v)
  | .object fields =>
    style.enclose depth .openObject .closeObject (fields.map fun field =>
      .lexeme (.string field.1) :: style.colon ++ layout style (depth + 1) field.2)
termination_by v => sizeOf v
decreasing_by
  · have := List.sizeOf_lt_of_mem ‹v ∈ items›
    simp only [array.sizeOf_spec]
    omega
  · obtain ⟨key, v⟩ := field
    have := List.sizeOf_lt_of_mem ‹(key, v) ∈ fields›
    simp only [Prod.mk.sizeOf_spec, object.sizeOf_spec] at this ⊢
    omega

/-- The text of a value. -/
def write (style : Style) (v : Json) : String :=
  String.ofList ((layout style 0 v).flatMap Part.chars)

end IntcodeMachine.Json
