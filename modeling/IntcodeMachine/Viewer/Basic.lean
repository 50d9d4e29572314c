import IntcodeMachine.Breakout.Game

/-!
# The viewer

A viewer shows a game while it goes on by itself, or event by event, and can
start it again. It goes on by itself in ticks of at most `Viewer.eventsPerTick`
events; a tick ends early with a change of the score.
-/
namespace IntcodeMachine

/-- What a viewer tells about the game. -/
inductive ViewerStatus
  | ready
  | restarted
  | running
  | paused
  | drew (x y : Cell) (tile : Tile)
  | scored (points : Cell)
  | gameOver (score : Cell)
  | cleared (score : Cell)
  | failed (error : GameError)
deriving DecidableEq, Repr

/-- The wording of a status. -/
def ViewerStatus.text : ViewerStatus → String
  | .ready => "Ready. Press 'space' to run, 's' to step, 'q' to quit."
  | .restarted => "Reset. Ready."
  | .running => "Running..."
  | .paused => "Paused."
  | .drew x y tile => "Draw " ++ tile.name ++ " at (" ++ x.text ++ ", " ++ y.text ++ ")"
  | .scored points => "Score: " ++ points.text
  | .gameOver score => "Game over. Final score " ++ score.text
  | .cleared score => "Cleared! Score " ++ score.text
  | .failed error => "Error: " ++ error.message

/-- The status after an event. -/
def ViewerStatus.ofEvent : Event → ViewerStatus
  | .draw x y tile => .drew x y tile
  | .score points => .scored points

/-- A viewer: the program, whether its game is paid for, the game as it stands, whether it goes on
by itself, whether the viewer is to be left, the status, and the number of events since the start
of the game. -/
structure Viewer where
  program : List Cell
  freePlay : Bool
  game : Game
  running : Bool := false
  shouldQuit : Bool := false
  status : ViewerStatus := .ready
  events : Nat := 0
deriving DecidableEq

namespace Viewer

/-- The number of events after which a tick ends in any case. -/
def eventsPerTick : Nat := 64

/-- The game of a program at its start. -/
def start (program : List Cell) (freePlay : Bool) : Game :=
  let game := Game.load program
  if freePlay then game.insertQuarters else game

/-- A viewer of a program. -/
def load (program : List Cell) (freePlay : Bool) : Viewer where
  program
  freePlay
  game := start program freePlay

/-- The viewer at the start of the game. -/
def reset (v : Viewer) : Viewer :=
  { v with
    game := start v.program v.freePlay
    running := false
    status := .restarted
    events := 0 }

/-- The game goes on by itself, or does so no longer. -/
def toggleRunning (v : Viewer) : Viewer :=
  { v with
    running := !v.running
    status := if v.running then .paused else .running }

/-- Goes on to the next event. -/
def step (fuel : Nat) (v : Viewer) : Option (Option Event × Viewer) :=
  let ⟨program, freePlay, game, running, shouldQuit, _, events⟩ := v
  match game.next fuel with
  | none => none
  | some (.ok (some event), game) =>
    some (some event,
      ⟨program, freePlay, game, running, shouldQuit, .ofEvent event, events + 1⟩)
  | some (.ok none, game) =>
    some (none, ⟨program, freePlay, game, false, shouldQuit, .gameOver game.screen.score, events⟩)
  | some (.error e, game) =>
    some (none, ⟨program, freePlay, game, false, shouldQuit, .failed e, events⟩)

/-- Goes on for a number of events, at most to the next change of the score. -/
def stepMany (fuel : Nat) : Nat → Viewer → Option Viewer
  | 0, v => some v
  | count + 1, v =>
    match v.step fuel with
    | none => none
    | some (none, v) => some v
    | some (some (.draw ..), v) => stepMany fuel count v
    | some (some (.score points), v) =>
      some (if v.game.isCleared then { v with running := false, status := .cleared points } else v)

/-- What happens from time to time: the game goes on if it does so by itself. -/
def tick (fuel : Nat) (v : Viewer) : Option Viewer :=
  if v.running then v.stepMany fuel eventsPerTick else some v

end Viewer
end IntcodeMachine
