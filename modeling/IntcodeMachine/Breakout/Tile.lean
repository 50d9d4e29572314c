import IntcodeMachine.Cell

/-!
# Tiles and the joystick

What the game draws, and the input it reads.
-/
namespace IntcodeMachine

/-- What is drawn at a position of the screen. -/
inductive Tile
  | empty
  | wall
  | block
  | paddle
  | ball
deriving DecidableEq, Repr

namespace Tile

/-- Every tile, in the order of the numbers that stand for them. -/
def all : List Tile := [empty, wall, block, paddle, ball]

/-- The number that stands for a tile. -/
def id : Tile → Nat
  | empty => 0
  | wall => 1
  | block => 2
  | paddle => 3
  | ball => 4

/-- The tile that a number stands for. -/
def ofId? (n : Cell) : Option Tile := all.find? fun t => (t.id : Int) = n.toInt

/-- The character that shows a tile. -/
def glyph : Tile → Char
  | empty => ' '
  | wall => '|'
  | block => '='
  | paddle => '-'
  | ball => 'o'

/-- The name of a tile. -/
def name : Tile → String
  | empty => "Empty"
  | wall => "Wall"
  | block => "Block"
  | paddle => "Paddle"
  | ball => "Ball"

theorem ofId?_eq_some {n : Cell} {t : Tile} : ofId? n = some t ↔ (t.id : Int) = n.toInt := by
  constructor
  · intro h
    simpa using List.find?_some h
  · intro h
    unfold ofId?
    simp only [← h]
    cases t <;> decide

theorem glyph_injective {s t : Tile} (h : s.glyph = t.glyph) : s = t := by
  cases s <;> cases t <;> first | rfl | contradiction

end Tile

/-- The position of the joystick. -/
inductive Joystick
  | left
  | neutral
  | right
deriving DecidableEq, Repr

namespace Joystick

/-- The position that moves the paddle towards the ball. -/
def track (ball paddle : Cell) : Joystick :=
  if ball < paddle then left else if paddle < ball then right else neutral

/-- What the game reads. -/
def value : Joystick → Cell
  | left => -1
  | neutral => 0
  | right => 1

/-- The name of a position. -/
def name : Joystick → String
  | left => "Left"
  | neutral => "Neutral"
  | right => "Right"

end Joystick
end IntcodeMachine
