/-!
# Text cut into pieces

Text is handled as a list of characters. `pieces` cuts at a separator, `lines`
at line ends, and `trim` removes blanks at both ends, a blank being any
character with the Unicode property White_Space.
-/
namespace IntcodeMachine.Text

/-- The characters with the property White_Space. -/
def isBlank (c : Char) : Bool :=
  let n := c.toNat
  (0x09 ≤ n && n ≤ 0x0d) || n == 0x20 || n == 0x85 || n == 0xa0 || n == 0x1680 ||
    (0x2000 ≤ n && n ≤ 0x200a) || n == 0x2028 || n == 0x2029 || n == 0x202f || n == 0x205f ||
    n == 0x3000

/-- The text without its leading blanks. -/
def trimStart (text : List Char) : List Char := text.dropWhile isBlank

/-- The text without its trailing blanks. -/
def trimEnd (text : List Char) : List Char := (text.reverse.dropWhile isBlank).reverse

/-- The text without its leading and trailing blanks. -/
def trim (text : List Char) : List Char := trimEnd (trimStart text)

/-- One more character in front of the first piece. -/
def extendFirst (c : Char) : List (List Char) → List (List Char)
  | [] => [[c]]
  | first :: rest => (c :: first) :: rest

/-- The pieces between the separators: always one more than there are separators. -/
def pieces (separator : Char) (text : List Char) : List (List Char) :=
  text.foldr (fun c found => if c = separator then [] :: found else extendFirst c found) [[]]

@[simp] theorem pieces_nil (separator : Char) : pieces separator [] = [[]] := rfl

theorem pieces_cons (separator c : Char) (text : List Char) :
    pieces separator (c :: text) =
      if c = separator then [] :: pieces separator text
      else extendFirst c (pieces separator text) := rfl

theorem pieces_ne_nil (separator : Char) (text : List Char) : pieces separator text ≠ [] := by
  induction text with
  | nil => simp
  | cons c text ih =>
    rw [pieces_cons]
    split
    · simp
    · cases h : pieces separator text <;> simp [extendFirst]

/-- A line without the carriage return that may stand before its line feed. -/
def chomp (line : List Char) : List Char :=
  if line.getLast? = some '\r' then line.dropLast else line

/-- The lines of a text. A line ends at a line feed, which may follow a carriage return; the
last line may end with the text, and then a carriage return belongs to it. -/
def lines (text : List Char) : List (List Char) :=
  let found := pieces '\n' text
  let last := found.getLastD []
  found.dropLast.map chomp ++ if last.isEmpty then [] else [last]

end IntcodeMachine.Text
