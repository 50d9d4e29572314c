import IntcodeMachine.Breakout.Game

/-!
# Playing a game

A game is played to its end, or until it is cleared, and shown after each change
of the score. How it is shown is up to a renderer, which cannot change it.
-/
namespace IntcodeMachine

/-- A way of showing screens, one after another. Each changes the state of the renderer. -/
structure Renderer (ρ : Type) where
  render : ρ → Screen → Except RenderFailure Unit × ρ

namespace Renderer

/-- Shows nothing. -/
def silent : Renderer Unit where
  render _ _ := (.ok (), ())

end Renderer

/-! ## Text -/

/-- What clears a terminal and moves to its first position. -/
def clearSequence : String := "\x1b[2J\x1b[H"

/-- What is written for a screen, one piece after another: a line for each row, and one for score and
blocks, perhaps after clearing the terminal. -/
def Screen.pieces (clear : Bool) (s : Screen) : List String :=
  (if clear then [clearSequence] else []) ++ s.rows.map (fun row => glyphs row ++ "\n") ++
    ["Score: " ++ s.score.text ++ " Blocks remaining: " ++ Decimal.text s.blocks ++ "\n"]

/-- A place for text. It may have room for a limited number of bytes only, and may fail whenever text
is flushed. -/
structure Sink where
  /-- How many more bytes it takes, if there is a limit. -/
  limit : Option Nat := none
  flushFails : Bool := false
  written : String := ""
deriving DecidableEq, Repr

namespace Sink

/-- The sink takes characters as long as there is room. The first one that there is no room for
fills it, and nothing is taken after that. -/
def take (s : Sink) : List Char → Except RenderFailure Unit × Sink
  | [] => (.ok (), s)
  | c :: cs =>
    if s.limit.any (· < c.utf8Size) then (.error .sinkFull, { s with limit := some 0 })
    else take { s with limit := s.limit.map (· - c.utf8Size), written := s.written.push c } cs

/-- Writes a text, or the part of it that there is room for. -/
def write (s : Sink) (text : String) : Except RenderFailure Unit × Sink := s.take text.toList

/-- Goes on with the sink unless something has failed. -/
def andThen (r : Except RenderFailure Unit × Sink)
    (next : Sink → Except RenderFailure Unit × Sink) : Except RenderFailure Unit × Sink :=
  match r with
  | (.ok (), s) => next s
  | (.error e, s) => (.error e, s)

/-- Writes texts one after another, up to the first that fails. -/
def writeAll (s : Sink) : List String → Except RenderFailure Unit × Sink
  | [] => (.ok (), s)
  | text :: texts => andThen (s.write text) fun s => s.writeAll texts

/-- Flushes what has been written. -/
def flush (s : Sink) : Except RenderFailure Unit × Sink :=
  (if s.flushFails then .error .flushFailed else .ok (), s)

end Sink

/-- Shows screens as text, each after clearing the terminal if one likes. -/
def Renderer.text (clear : Bool) : Renderer Sink where
  render sink s := Sink.andThen (sink.writeAll (s.pieces clear)) Sink.flush

/-! ## The game loop -/

namespace Game

variable {ρ : Type} (renderer : Renderer ρ)

/-- Plays with a renderer and answers the final score. -/
def play (stepFuel : Nat) : Nat → ρ → Game → Option (Except GameError Cell × ρ × Game)
  | 0, _, _ => none
  | fuel + 1, r, g =>
    match g.next stepFuel with
    | none => none
    | some (.error e, g) => some (.error e, r, g)
    | some (.ok none, g) => some (.ok g.screen.score, r, g)
    | some (.ok (some (.draw ..)), g) => play stepFuel fuel r g
    | some (.ok (some (.score _)), g) =>
      match renderer.render r g.screen with
      | (.error failure, r) => some (.error (.render failure), r, g)
      | (.ok (), r) =>
        if g.isCleared then some (.ok g.screen.score, r, g) else play stepFuel fuel r g

end Game
end IntcodeMachine
