import IntcodeMachine.Breakout.Screen
import IntcodeMachine.Machine.Run

/-!
# The game

A game runs on a machine and speaks in triples of outputs: two coordinates and
the number of a tile, or -1, 0 and the score. Each triple is an event. The
joystick, which is the machine's input, follows the ball.
-/
namespace IntcodeMachine

/-- Three outputs of the machine. -/
structure Triple where
  x : Cell
  y : Cell
  value : Cell
deriving DecidableEq, Repr

/-- What a triple says. -/
inductive Event
  | draw (x y : Cell) (tile : Tile)
  | score (points : Cell)
deriving DecidableEq, Repr

/-- Why a frame cannot be written. -/
inductive RenderFailure
  | sinkFull
  | flushFailed
deriving DecidableEq, Repr

/-- The wording of a rendering failure. -/
def RenderFailure.message : RenderFailure → String
  | .sinkFull => "sink full"
  | .flushFailed => "flush failed"

/-- Why a game cannot go on. -/
inductive GameError
  | fault (fault : Fault)
  | unknownTile (id : Cell)
  | render (failure : RenderFailure)
deriving DecidableEq, Repr

/-- The wording of a game error. -/
def GameError.message : GameError → String
  | .fault f => "VM error: " ++ f.message
  | .unknownTile id => "unknown tile id " ++ id.text
  | .render failure => "render error: " ++ failure.message

/-- The event of a triple. -/
def Triple.event (t : Triple) : Except GameError Event :=
  if t.x = -1 ∧ t.y = 0 then .ok (.score t.value)
  else match Tile.ofId? t.value with
    | some tile => .ok (.draw t.x t.y tile)
    | none => .error (.unknownTile t.value)

/-- Runs to the third output from here. There is no triple if the machine halts before. -/
def Machine.runToTriple (fuel : Nat) (m : Machine) : Option (Result (Option Triple)) :=
  match m.runToOutput fuel with
  | some (.ok (.output x), m) =>
    match m.runToOutput fuel with
    | some (.ok (.output y), m) =>
      match m.runToOutput fuel with
      | some (.ok (.output value), m) => some (.ok (some ⟨x, y, value⟩), m)
      | other => other.map short
    | other => other.map short
  | other => other.map short
where
  /-- A run that ends before the third output. -/
  short : Result Outcome → Result (Option Triple)
    | (.ok _, m) => (.ok none, m)
    | (.error fault, m) => (.error fault, m)

/-- The screen after an event. -/
def Screen.after (s : Screen) : Event → Screen
  | .draw x y tile => s.draw x y tile
  | .score points => s.setScore points

/-- A game: the machine it runs on, its screen, where ball and paddle were drawn last, and the
joystick. -/
structure Game where
  machine : Machine
  screen : Screen := {}
  ball : Option Cell := none
  paddle : Option Cell := none
  joystick : Joystick := .neutral
deriving DecidableEq

namespace Game

/-- A game at its start. -/
def load (image : List Cell) : Game where
  machine := .load image (some Joystick.neutral.value)

/-- What the game finds at address zero once it has been paid for. -/
def quarters : Cell := 2

/-- The game paid for. -/
def insertQuarters (g : Game) : Game :=
  { g with machine := { g.machine with memory := g.machine.memory.set 0 quarters } }

/-- The game with the joystick aimed at the ball, if ball and paddle are known. -/
def aim (g : Game) : Game :=
  match g.ball, g.paddle with
  | some ball, some paddle =>
    let joystick := Joystick.track ball paddle
    { g with joystick, machine := g.machine.setInput joystick.value }
  | _, _ => g

/-- The game after an event. -/
def after (g : Game) : Event → Game
  | .score points => { g with screen := g.screen.after (.score points) }
  | .draw x y tile =>
    let screen := g.screen.after (.draw x y tile)
    match tile with
    | .paddle => aim { g with screen, paddle := some x }
    | .ball => aim { g with screen, ball := some x }
    | _ => aim { g with screen }

/-- Runs to the next event. There is none once the machine has halted. -/
def next (fuel : Nat) (g : Game) : Option (Except GameError (Option Event) × Game) :=
  let ⟨machine, screen, ball, paddle, joystick⟩ := g
  match machine.runToTriple fuel with
  | none => none
  | some (.error fault, machine) =>
    some (.error (.fault fault), ⟨machine, screen, ball, paddle, joystick⟩)
  | some (.ok none, machine) => some (.ok none, ⟨machine, screen, ball, paddle, joystick⟩)
  | some (.ok (some triple), machine) =>
    let g : Game := ⟨machine, screen, ball, paddle, joystick⟩
    match triple.event with
    | .ok event => some (.ok (some event), g.after event)
    | .error e => some (.error e, g)

/-- Runs through all events that are left. -/
def finish (stepFuel : Nat) : Nat → Game → Option (Except GameError Unit × Game)
  | 0, _ => none
  | fuel + 1, g =>
    match g.next stepFuel with
    | none => none
    | some (.error e, g) => some (.error e, g)
    | some (.ok none, g) => some (.ok (), g)
    | some (.ok (some _), g) => finish stepFuel fuel g

/-- Blocks have been drawn and none is left. -/
def isCleared (g : Game) : Bool := g.screen.isCleared

end Game
end IntcodeMachine
