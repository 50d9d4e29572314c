import IntcodeMachine.Breakout.Tile
import Std.Data.ExtTreeMap

/-!
# The screen

The tiles drawn so far and the score. The screen grows with what is drawn, up to
`Screen.extent` columns and rows; what is drawn elsewhere is not seen. The number
of blocks is kept along with the tiles.
-/
namespace IntcodeMachine

/-- The tiles that have been drawn, the greatest column and row among them, the number of blocks,
whether a block has ever been drawn, and the score. -/
structure Screen where
  tiles : Std.ExtTreeMap Nat Tile := ∅
  lastColumn : Option Nat := none
  lastRow : Option Nat := none
  blocks : Nat := 0
  seenBlocks : Bool := false
  score : Cell := 0
deriving DecidableEq

namespace Screen

/-- The number of columns and of rows that can be seen. -/
def extent : Nat := 1024

/-- The column or row with a coordinate. -/
def visible? (coordinate : Cell) : Option Nat :=
  if 0 ≤ coordinate ∧ coordinate.toInt < extent then some coordinate.toInt.toNat else none

/-- The place of a position among all that can be seen, row by row. -/
def place (column row : Nat) : Nat := row * extent + column

/-- What stands at a position. -/
def tileIn (s : Screen) (column row : Nat) : Tile := s.tiles.getD (place column row) .empty

/-- What stands at the position with two coordinates. -/
def tileAt (s : Screen) (x y : Cell) : Tile :=
  match visible? x, visible? y with
  | some column, some row => s.tileIn column row
  | _, _ => .empty

/-- The greater of two, if there is one already. -/
def atLeast (found : Option Nat) (n : Nat) : Option Nat :=
  match found with
  | some m => some (max m n)
  | none => some n

/-- The screen with a tile drawn at a position. -/
def put (s : Screen) (column row : Nat) (tile : Tile) : Screen where
  tiles := s.tiles.insert (place column row) tile
  lastColumn := atLeast s.lastColumn column
  lastRow := atLeast s.lastRow row
  blocks :=
    if s.tileIn column row ≠ .block ∧ tile = .block then s.blocks + 1
    else if s.tileIn column row = .block ∧ tile ≠ .block then s.blocks - 1
    else s.blocks
  seenBlocks := s.seenBlocks || tile == .block
  score := s.score

/-- The screen with a tile drawn at two coordinates, if they can be seen. -/
def draw (s : Screen) (x y : Cell) (tile : Tile) : Screen :=
  match visible? x, visible? y with
  | some column, some row => s.put column row tile
  | _, _ => s

/-- The screen with another score. -/
def setScore (s : Screen) (score : Cell) : Screen := { s with score }

/-- The number of columns up to the greatest in which something has been drawn. -/
def width (s : Screen) : Nat := (s.lastColumn.map (· + 1)).getD 0

/-- The number of rows up to the greatest in which something has been drawn. -/
def height (s : Screen) : Nat := (s.lastRow.map (· + 1)).getD 0

/-- The tiles, row by row. -/
def rows (s : Screen) : List (List Tile) :=
  (List.range s.height).map fun row => (List.range s.width).map fun column => s.tileIn column row

/-- The characters of a row of tiles. -/
def glyphs (row : List Tile) : String := String.ofList (row.map Tile.glyph)

/-- Blocks have been drawn and none is left. -/
def isCleared (s : Screen) : Bool := s.seenBlocks && s.blocks == 0

end Screen
end IntcodeMachine
