import IntcodeMachine.Viewer.Basic

/-!
# The frame of a viewer

A viewer is drawn as four panels: the game and the status on the left, the
machine and some help on the right. A panel is a block of exactly given size, and
a frame is four such blocks beside and above each other, so that what a panel
holds cannot reach another one.
-/
namespace IntcodeMachine

/-- The colours of a frame. -/
inductive Color
  | reset
  | cyan
  | green
  | yellow
  | red
  | white
  | gray
  | darkGray
  | magenta
deriving DecidableEq, Repr

/-- A character of a frame. -/
structure Spot where
  glyph : Char := ' '
  color : Color := .reset
  bold : Bool := false
deriving DecidableEq, Repr

namespace Spot

/-- Text in one colour. -/
def text (s : String) (color : Color := .reset) : List Spot := s.toList.map ({ glyph := ·, color })

/-- The spots that come first, and as many blanks in a colour as are missing. -/
def fit (width : Nat) (blank : Spot) (spots : List Spot) : List Spot :=
  spots.take width ++ List.replicate (width - spots.length) blank

end Spot

namespace Frame

/-- A box of a size with a title over its upper border and lines inside. Blanks and border have a
colour each. -/
def panel (width height : Nat) (border ground : Color) (title : String)
    (lines : List (List Spot)) : List (List Spot) :=
  let inner := width - 2
  let edge (c : Char) : Spot := { glyph := c, color := border }
  let blank : Spot := { color := ground }
  let inside := lines.take (height - 2) ++ List.replicate (height - 2 - lines.length) []
  (edge '┌' :: Spot.fit inner (edge '─') (Spot.text title border) ++ [edge '┐']) ::
    inside.map (fun line => edge '│' :: Spot.fit inner blank line ++ [edge '│']) ++
    [edge '└' :: List.replicate inner (edge '─') ++ [edge '┘']]

/-- How a tile is shown. -/
def tile (t : Tile) : Spot :=
  match t with
  | .empty => { glyph := t.glyph }
  | .wall => { glyph := t.glyph, color := .gray }
  | .block => { glyph := t.glyph, color := .magenta }
  | .paddle => { glyph := t.glyph, color := .green, bold := true }
  | .ball => { glyph := t.glyph, color := .yellow, bold := true }

/-- The colour of a machine's status. -/
def statusColor : Status → Color
  | .running => .green
  | .halted => .yellow
  | .faulted => .red

/-- The panel of the game. -/
def gamePanel (width height : Nat) (s : Screen) : List (List Spot) :=
  panel width height .cyan .reset
    (" Score " ++ s.score.text ++ "  Blocks " ++ Decimal.text s.blocks ++ " ")
    (s.rows.map (·.map tile))

/-- The panel of the machine. -/
def machinePanel (width height : Nat) (v : Viewer) : List (List Spot) :=
  let m := v.game.machine
  let input := match m.channel.input with
    | some value => value.text
    | none => "-"
  panel width height .green .reset " VM " [
    Spot.text "PC:     " ++ Spot.text m.counter.text .yellow,
    Spot.text "RB:     " ++ Spot.text m.base.text .white,
    Spot.text "Input:  " ++ Spot.text input .white ++
      Spot.text ("  (" ++ v.game.joystick.name ++ ")"),
    Spot.text "Output: " ++ Spot.text (Decimal.text m.outputs.size) .cyan,
    Spot.text "Steps:  " ++ Spot.text (Decimal.text m.steps.toNat) .cyan,
    Spot.text "Events: " ++ Spot.text (Decimal.text v.events) .cyan,
    Spot.text "State:  " ++ Spot.text m.status.name (statusColor m.status)]

/-- The panel of the status. -/
def statusPanel (width height : Nat) (status : ViewerStatus) : List (List Spot) :=
  panel width height .white .white " Status " [Spot.text status.text .white]

/-- The panel of the keys. -/
def helpPanel (width height : Nat) : List (List Spot) :=
  panel width height .darkGray .darkGray " Help " [
    Spot.text "space: Run/Pause  s: Step" .darkGray,
    Spot.text "x: Reset  q: Quit" .darkGray]

/-- The width of the left panels: seven tenths of the frame. -/
def leftWidth (width : Nat) : Nat := width * 7 / 10

/-- The frame of a viewer, row by row. -/
def draw (width height : Nat) (v : Viewer) : List (List Spot) :=
  let left := leftWidth width
  let right := width - left
  List.zipWith (· ++ ·)
    (gamePanel left (height - 3) v.game.screen ++ statusPanel left 3 v.status)
    (machinePanel right (height - 5) v ++ helpPanel right 5)

end Frame
end IntcodeMachine
