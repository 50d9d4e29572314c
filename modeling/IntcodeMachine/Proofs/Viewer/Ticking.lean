import IntcodeMachine.Proofs.Breakout.Playing
import IntcodeMachine.Viewer.Basic

/-! # Ticks play the game

A viewer that goes on by itself plays the game in batches: a tick ends after
`Viewer.eventsPerTick` events and after every change of the score.  `ticks_play`
says that this is the same game as the one that `play` plays, wherever the batches
end: the ticks stop, with the same game, as many events, and a status that tells
why.

The proof is an induction on the game as it is played, for every number of events
that may be left in the current batch (`Finishes`).  A batch with none left is no
case of its own, since the next tick starts with a whole one
(`finishes_of_succ`).
-/
namespace IntcodeMachine

/-- The status that a game played to this end leaves. -/
def Ending.status (ending : Ending) (score : Cell) : ViewerStatus :=
  match ending with
  | .halted => .gameOver score
  | .cleared => .cleared score
  | .failed e => .failed e

namespace Viewer

/-! ## Batches and ticks -/

/-- What a viewer does with an answer. -/
def hear (v : Viewer) : Game.Answer × Game → Option Event × Viewer
  | (.ok (some event), game) =>
    (some event, { v with game, status := .ofEvent event, events := v.events + 1 })
  | (.ok none, game) =>
    (none, { v with game, running := false, status := .gameOver game.screen.score })
  | (.error e, game) => (none, { v with game, running := false, status := .failed e })

theorem step_eq (v : Viewer) (fuel : Nat) : v.step fuel = (v.game.next fuel).map v.hear := by
  obtain ⟨program, freePlay, game, running, shouldQuit, status, events⟩ := v
  dsimp only [step]
  rcases game.next fuel with _ | ⟨_ | _ | event, game⟩ <;> rfl

/-- What a batch with some events left does after a step. -/
def goOn (count fuel : Nat) : Option Event × Viewer → Option Viewer
  | (none, v) => some v
  | (some (.draw ..), v) => v.stepMany fuel count
  | (some (.score points), v) =>
    some (if v.game.isCleared then { v with running := false, status := .cleared points } else v)

theorem stepMany_succ (v : Viewer) (fuel count : Nat) :
    v.stepMany fuel (count + 1) = (v.step fuel).bind (goOn count fuel) := by
  rw [stepMany]
  rcases v.step fuel with _ | ⟨_ | _ | _, v⟩ <;> rfl

theorem steady_step (v : Viewer) : Steady fun fuel => v.step fuel := by
  simp only [step_eq]
  exact v.game.steady_next.map v.hear

theorem steady_goOn {count : Nat} (steady : ∀ v : Viewer, Steady fun fuel => v.stepMany fuel count)
    (r : Option Event × Viewer) : Steady fun fuel => goOn count fuel r := by
  rcases r with ⟨_ | _ | _, v⟩
  · exact fun _ _ h => h
  · exact steady v
  · exact fun _ _ h => h

theorem steady_stepMany (v : Viewer) (count : Nat) : Steady fun fuel => v.stepMany fuel count := by
  induction count generalizing v with
  | zero => exact fun _ _ h => h
  | succ count ih =>
    simp only [stepMany_succ]
    exact v.steady_step.bind (steady_goOn ih)

/-- The viewer goes on for this number of events, or until the batch ends before. -/
def Batch (count : Nat) (v v' : Viewer) : Prop := Returns (fun fuel => v.stepMany fuel count) v'

/-- A batch is a call for an event and what is done after it. -/
theorem Batch.step {v v' : Viewer} {count : Nat} {answer : Game.Answer} {g : Game}
    (call : v.game.Next answer g)
    (rest : Returns (fun fuel => goOn count fuel (v.hear (answer, g))) v') :
    Batch (count + 1) v v' := by
  have stepped : Returns (fun fuel => v.step fuel) (v.hear (answer, g)) := by
    obtain ⟨fuel, call⟩ := call
    exact ⟨fuel, (v.step_eq fuel).trans (congrArg (Option.map v.hear) call)⟩
  simp only [Batch, stepMany_succ]
  exact (v.steady_step.returns_bind (steady_goOn (steady_stepMany · count))).mpr
    ⟨_, stepped, rest⟩

/-- A tick of the viewer. -/
def Tick (v v' : Viewer) : Prop := Returns (fun fuel => v.tick fuel) v'

/-- The viewer ticks this number of times, and runs before each of them. -/
inductive Ticks : Nat → Viewer → Viewer → Prop
  | none (v : Viewer) : Ticks 0 v v
  | tick {n : Nat} {v v₁ v' : Viewer} (running : v.running = true) (first : v.Tick v₁)
      (rest : Ticks n v₁ v') : Ticks (n + 1) v v'

/-- **The viewer stops after this number of ticks, and not before.** -/
def StopsAfter (n : Nat) (v v' : Viewer) : Prop := Ticks n v v' ∧ v'.running = false

theorem Tick.unique {v v' v'' : Viewer} (h : v.Tick v') (h' : v.Tick v'') : v' = v'' := by
  refine Steady.unique (fun fuel w hw => ?_) h h'
  change v.tick fuel = some w at hw
  unfold tick at hw ⊢
  split at hw
  · rename_i running
    rw [if_pos running]
    exact v.steady_stepMany eventsPerTick fuel w hw
  · rename_i stopped
    rw [if_neg stopped]
    exact hw

/-- A viewer stops after one number of ticks only, and in one way. -/
theorem StopsAfter.unique {n k : Nat} {v v' v'' : Viewer} (h : StopsAfter n v v')
    (h' : StopsAfter k v v'') : n = k ∧ v' = v'' := by
  obtain ⟨ticks, stopped⟩ := h
  obtain ⟨ticks', stopped'⟩ := h'
  induction ticks generalizing k with
  | none v =>
    cases ticks' with
    | none => exact ⟨rfl, rfl⟩
    | tick running => rw [running] at stopped; contradiction
  | tick running first _ ih =>
    cases ticks' with
    | none => rw [running] at stopped'; contradiction
    | tick _ first' rest' =>
      obtain rfl := first.unique first'
      obtain ⟨rfl, rfl⟩ := ih stopped rest'
      exact ⟨rfl, rfl⟩

/-! ## The game that is played -/

/-- The ticks stop with a game, a number of events and a status. -/
def Stops (v : Viewer) (g : Game) (events : Nat) (status : ViewerStatus) : Prop :=
  ∃ n v', StopsAfter n v v' ∧ v'.game = g ∧ v'.events = events ∧ v'.status = status

theorem Stops.tick {v v₁ : Viewer} {g : Game} {events : Nat} {status : ViewerStatus}
    (running : v.running = true) (batch : Batch eventsPerTick v v₁)
    (stops : v₁.Stops g events status) : v.Stops g events status := by
  obtain ⟨n, v', ⟨ticks, stopped⟩, left⟩ := stops
  have first : v.Tick v₁ := by
    obtain ⟨fuel, batch⟩ := batch
    refine ⟨fuel, ?_⟩
    change v.tick fuel = some v₁
    rw [Viewer.tick, if_pos running]
    exact batch
  exact ⟨n + 1, v', ⟨.tick running first ticks, stopped⟩, left⟩

/-- **A viewer in the middle of a batch**, with `count` events left in it, ends this batch and then
its ticks stop. -/
def Finishes (count : Nat) (v : Viewer) (g : Game) (events : Nat) (status : ViewerStatus) : Prop :=
  ∃ v₁, Batch count v v₁ ∧ v₁.Stops g events status

/-- With no events left in a batch it is the next tick that goes on. -/
theorem finishes_of_succ {v : Viewer} {g : Game} {events : Nat} {status : ViewerStatus}
    (running : v.running = true) (h : ∀ count, Finishes (count + 1) v g events status)
    (count : Nat) : Finishes count v g events status := by
  cases count with
  | zero =>
    obtain ⟨v₁, batch, stops⟩ := h (eventsPerTick - 1)
    exact ⟨v, ⟨0, rfl⟩, stops.tick running batch⟩
  | succ count => exact h count

/-- A batch that ends with a stopped viewer is the last one. -/
theorem finishes_of_stopped {v v₁ : Viewer} {count : Nat} (batch : Batch count v v₁)
    (stopped : v₁.running = false) : Finishes count v v₁.game v₁.events v₁.status :=
  ⟨v₁, batch, 0, v₁, ⟨.none v₁, stopped⟩, rfl, rfl, rfl⟩

/-- **However many events are left in the batch, the game is played to its end.** -/
theorem finishes_of_plays {g g' : Game} {events : List Event} {ending : Ending}
    (plays : g.Plays events ending g') {v : Viewer} (game : v.game = g)
    (running : v.running = true) (count : Nat) :
    Finishes count v g' (v.events + events.length) (ending.status g'.screen.score) := by
  induction plays generalizing v count with
  | halted call =>
    subst game
    refine finishes_of_succ running (fun count => ?_) count
    exact finishes_of_stopped (Batch.step call ⟨0, rfl⟩) rfl
  | fails call =>
    subst game
    refine finishes_of_succ running (fun count => ?_) count
    exact finishes_of_stopped (Batch.step call ⟨0, rfl⟩) rfl
  | @clears g g' points call cleared =>
    subst game
    refine finishes_of_succ running (fun count => ?_) count
    have batch : Batch (count + 1) v _ := .step call ⟨0, congrArg some (if_pos cleared)⟩
    rw [Game.score_of_next call]
    exact finishes_of_stopped batch rfl
  | @scores g g₁ g' points events ending call uncleared _ ih =>
    subst game
    refine finishes_of_succ running (fun count => ?_) count
    -- The change of the score ends this batch, so none of the next one is used yet.
    have batch : Batch (count + 1) v _ :=
      .step call ⟨0, congrArg some (if_neg (by rw [uncleared]; decide))⟩
    obtain ⟨_, ⟨_, none⟩, stops⟩ :=
      ih (v := (v.hear (.ok (some (.score points)), g₁)).2) rfl running 0
    cases none
    rw [List.length_cons, Nat.add_comm events.length, ← Nat.add_assoc]
    exact ⟨_, batch, stops⟩
  | @draws g g₁ g' x y tile events ending call _ ih =>
    subst game
    refine finishes_of_succ running (fun count => ?_) count
    obtain ⟨v₁, batch, stops⟩ :=
      ih (v := (v.hear (.ok (some (.draw x y tile)), g₁)).2) rfl running count
    rw [List.length_cons, Nat.add_comm events.length, ← Nat.add_assoc]
    exact ⟨v₁, .step call batch, stops⟩

end Viewer

/-! ## The statement -/

/-- The text that is told of a game that `play` has played to this end, with this answer. -/
def Ending.Tells (ending : Ending) (result : Except GameError Cell) (text : String) : Prop :=
  match ending, result with
  | .cleared, .ok score => text = "Cleared! Score " ++ score.text
  | .halted, .ok score => text = "Game over. Final score " ++ score.text
  | .failed e, .error e' => e = e' ∧ text = "Error: " ++ e.message
  | _, _ => False

theorem Ending.tells_status (ending : Ending) (score : Cell) :
    ending.Tells (ending.result score) (ending.status score).text := by
  cases ending with
  | halted => rfl
  | cleared => rfl
  | failed e => exact ⟨rfl, rfl⟩

namespace Viewer

/-- **The viewer has come to the same end** as a game that has been played. -/
structure Agrees (v : Viewer) (g : Game) (events : List Event) (ending : Ending)
    (result : Except GameError Cell) : Prop where
  game : v.game = g
  events : v.events = events.length
  status : ending.Tells result v.status.text

/-- **The ticks of a viewer play the game that `play` plays.**  If playing a game returns, having
gone through these events to this end, then the ticks of a viewer of the same program stop after
exactly one number of them, and the viewer has come to the same end. -/
theorem ticks_play (program : List Cell) (freePlay : Bool) {stepFuel fuel : Nat}
    {result : Except GameError Cell} {g : Game}
    (returns : (if freePlay then (Game.load program).insertQuarters else Game.load program).play
      .silent stepFuel fuel () = some (result, (), g)) :
    ∃ events ending n v,
      (if freePlay then (Game.load program).insertQuarters else Game.load program).Plays
        events ending g ∧
      (∀ k w, StopsAfter k (load program freePlay).toggleRunning w ↔ k = n ∧ w = v) ∧
      v.Agrees g events ending result := by
  obtain ⟨events, ending, plays, rfl⟩ := Game.plays_of_play returns
  obtain ⟨_, ⟨_, batch⟩, n, v, stops, game, count, status⟩ :=
    finishes_of_plays plays (v := (load program freePlay).toggleRunning) rfl rfl 0
  cases batch
  refine ⟨events, ending, n, v, plays, fun k w => ⟨fun stops' => stops'.unique stops, ?_⟩, ?_⟩
  · rintro ⟨rfl, rfl⟩
    exact stops
  · refine ⟨game, count.trans (Nat.zero_add _), ?_⟩
    rw [status]
    exact ending.tells_status _

/-- A block is drawn and removed, and then the score changes. -/
def oneBlock : List Cell :=
  [104, 0, 104, 0, 104, 2, 104, 0, 104, 0, 104, 0, 104, -1, 104, 0, 104, 7, 99]

/-- The change of the score finds the game cleared, after three events and one tick. -/
theorem ticks_play_cleared :
    ∃ g events v, (Game.load oneBlock).play .silent 8 8 () = some (.ok 7, (), g) ∧
      (Game.load oneBlock).Plays events .cleared g ∧ events.length = 3 ∧
      StopsAfter 1 (load oneBlock false).toggleRunning v ∧ v.Agrees g events .cleared (.ok 7) := by
  obtain ⟨g, returns⟩ :
      ∃ g, (Game.load oneBlock).play .silent 8 8 () = some (.ok 7, (), g) := ⟨_, rfl⟩
  have ticked : ((load oneBlock false).toggleRunning.tick 8).map
      (fun v => (v.running, v.events, v.status)) = some (false, 3, .cleared 7) := by rfl
  obtain ⟨v, tick, seen⟩ := Option.map_eq_some_iff.mp ticked
  simp only [Prod.mk.injEq] at seen
  obtain ⟨stopped, count, status⟩ := seen
  have once : StopsAfter 1 _ v := ⟨.tick rfl ⟨8, tick⟩ (.none v), stopped⟩
  obtain ⟨events, ending, n, v', plays, stops, agrees⟩ := ticks_play oneBlock false returns
  obtain ⟨-, rfl⟩ := (stops 1 v).mp once
  have told := agrees.status
  rw [status] at told
  cases ending with
  | cleared => exact ⟨g, events, v, returns, plays, agrees.events.symm.trans count, once, agrees⟩
  | halted =>
    change "Cleared! Score " ++ Cell.text 7 = "Game over. Final score " ++ Cell.text 7 at told
    exact absurd told (by decide)
  | failed e => exact told.elim

end Viewer
end IntcodeMachine
