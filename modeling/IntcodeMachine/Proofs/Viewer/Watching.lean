import IntcodeMachine.Proofs.Breakout.Calls
import IntcodeMachine.Proofs.Viewer.Ticking

/-! # Watching a game

Whoever watches a game steps it, lets it go on and stops it, and starts it again, in
any order.  The viewer keeps no record of what it has asked the game; `Makes` tells
for each operation which calls for events it makes, and `Watched` collects them from
the last reset on.  That an operation returns is that there are such calls
(`returns_perform_iff`), and there is one list of them (`Makes.unique`).

Whatever is done with a viewer that is no reset adds the calls to the game, counts the
events among them, and stops if one of them found none (`Advances`).  From this,
`Shows` holds at any time: the viewer is at some place of the one game that the
program has.
-/
namespace IntcodeMachine

namespace Game

/-- An answer that is an event. -/
def Answer.isEvent : Answer → Bool
  | .ok (some _) => true
  | _ => false

theorem Calls.of_append {g g'' : Game} {answers more : List Answer}
    (calls : g.Calls (answers ++ more) g'') : ∃ g', g.Calls answers g' ∧ g'.Calls more g'' := by
  induction answers generalizing g with
  | nil => exact ⟨g, .none g, calls⟩
  | cons answer answers ih =>
    cases calls with
    | call first rest =>
      obtain ⟨g', before, after⟩ := ih rest
      exact ⟨g', .call first before, after⟩

/-- Of two sequences of calls the longer one goes on where the shorter one ends. -/
theorem Calls.goesOn {g g' g'' : Game} {answers more : List Answer} (calls : g.Calls answers g')
    (calls' : g.Calls more g'') (le : answers.length ≤ more.length) :
    answers <+: more ∧ g'.Calls (more.drop answers.length) g'' := by
  rw [← more.take_append_drop answers.length] at calls'
  obtain ⟨g₁, before, after⟩ := calls'.of_append
  obtain ⟨taken, rfl⟩ := calls.unique before (by rw [List.length_take, Nat.min_eq_left le])
  exact ⟨List.prefix_iff_eq_take.mpr taken, after⟩

/-- Paying writes where there is memory, so that it does not fail. -/
theorem poke_quarters (g : Game) : g.machine.poke 0 quarters = .ok g.insertQuarters.machine := rfl

end Game

namespace Viewer

open Game (Answer)

variable {program : List Cell} {freePlay : Bool}
variable {v v₁ v' v'' : Viewer} {answers more : List Answer} {answer : Answer} {g : Game}

/-- What can be done with a viewer. -/
inductive Operation
  | step
  | tick
  | toggleRunning
  | reset
deriving DecidableEq

/-- The viewer after an operation, if `fuel` steps are enough for each of its events. -/
def perform (v : Viewer) (o : Operation) (fuel : Nat) : Option Viewer :=
  match o with
  | .step => (v.step fuel).map Prod.snd
  | .tick => v.tick fuel
  | .toggleRunning => some v.toggleRunning
  | .reset => some v.reset

/-! ## The calls of an operation -/

/-- What a change of the score does besides: a game that is cleared stops. -/
def afterScore (v : Viewer) (points : Cell) : Viewer :=
  if v.game.isCleared then { v with running := false, status := .cleared points } else v

theorem afterScore_of_cleared {points : Cell} (cleared : v.game.isCleared = true) :
    v.afterScore points = { v with running := false, status := .cleared points } :=
  if_pos cleared

/-- **A batch with some events left makes these calls** and leaves this viewer. -/
inductive BatchCalls : Nat → Viewer → List Answer → Viewer → Prop
  | full (v : Viewer) : BatchCalls 0 v [] v
  | halted {count : Nat} {v : Viewer} {g : Game} (call : v.game.Next (.ok none) g) :
      BatchCalls (count + 1) v [.ok none] (v.hear (.ok none, g)).2
  | fails {count : Nat} {v : Viewer} {g : Game} {e : GameError}
      (call : v.game.Next (.error e) g) :
      BatchCalls (count + 1) v [.error e] (v.hear (.error e, g)).2
  | scores {count : Nat} {v : Viewer} {g : Game} {points : Cell}
      (call : v.game.Next (.ok (some (.score points))) g) :
      BatchCalls (count + 1) v [.ok (some (.score points))]
        ((v.hear (.ok (some (.score points)), g)).2.afterScore points)
  | draws {count : Nat} {v v' : Viewer} {g : Game} {x y : Cell} {tile : Tile}
      {answers : List Answer} (call : v.game.Next (.ok (some (.draw x y tile))) g)
      (rest : BatchCalls count (v.hear (.ok (some (.draw x y tile)), g)).2 answers v') :
      BatchCalls (count + 1) v (.ok (some (.draw x y tile)) :: answers) v'

/-- A batch returns if and only if there are its calls. -/
theorem batch_iff {count : Nat} : Batch count v v' ↔ ∃ answers, BatchCalls count v answers v' := by
  constructor
  · rintro ⟨fuel, h⟩
    change v.stepMany fuel count = some v' at h
    induction count generalizing v with
    | zero =>
      cases h
      exact ⟨_, .full _⟩
    | succ count ih =>
      rw [stepMany_succ, step_eq] at h
      obtain ⟨_, stepped, h⟩ := Option.bind_eq_some_iff.mp h
      obtain ⟨⟨answer, g⟩, hn, rfl⟩ := Option.map_eq_some_iff.mp stepped
      have call : v.game.Next answer g := ⟨fuel, hn⟩
      match answer with
      | .error e =>
        cases h
        exact ⟨_, .fails call⟩
      | .ok none =>
        cases h
        exact ⟨_, .halted call⟩
      | .ok (some (.score points)) =>
        cases h
        exact ⟨_, .scores call⟩
      | .ok (some (.draw x y tile)) =>
        obtain ⟨answers, rest⟩ := ih h
        exact ⟨_, .draws call rest⟩
  · rintro ⟨answers, calls⟩
    induction calls with
    | full => exact ⟨0, rfl⟩
    | halted call | fails call | scores call => exact .step call ⟨0, rfl⟩
    | draws call _ ih => exact .step call ih

theorem BatchCalls.unique {count : Nat} (calls : BatchCalls count v answers v')
    (calls' : BatchCalls count v more v'') : answers = more ∧ v' = v'' := by
  induction calls generalizing more with
  | full =>
    cases calls'
    exact ⟨rfl, rfl⟩
  | halted call | fails call | scores call =>
    cases calls' with
    | halted call' | fails call' | scores call' | draws call' =>
      obtain ⟨answer, rfl⟩ := call.unique call'
      cases answer <;> exact ⟨rfl, rfl⟩
  | draws call _ ih =>
    cases calls' with
    | halted call' | fails call' | scores call' => cases (call.unique call').1
    | draws call' rest' =>
      obtain ⟨⟨⟩, rfl⟩ := call.unique call'
      obtain ⟨rfl, rfl⟩ := ih rest'
      exact ⟨rfl, rfl⟩

/-- **An operation makes these calls** and leaves this viewer. -/
inductive Makes (v : Viewer) : Operation → List Answer → Viewer → Prop
  | step {answer : Answer} {g : Game} (call : v.game.Next answer g) :
      Makes v .step [answer] (v.hear (answer, g)).2
  | idle (stopped : v.running = false) : Makes v .tick [] v
  | tick {answers : List Answer} {v' : Viewer} (running : v.running = true)
      (calls : BatchCalls eventsPerTick v answers v') : Makes v .tick answers v'
  | toggleRunning : Makes v .toggleRunning [] v.toggleRunning
  | reset : Makes v .reset [] v.reset

theorem returns_tick_running (running : v.running = true) :
    Returns (v.perform .tick) v' ↔ Batch eventsPerTick v v' := by
  have tick : v.perform .tick = fun fuel => v.stepMany fuel eventsPerTick :=
    funext fun _ => if_pos running
  rw [tick]
  rfl

theorem returns_tick_stopped (stopped : v.running = false) :
    Returns (v.perform .tick) v' ↔ v' = v := by
  have tick : v.perform .tick = fun _ => some v :=
    funext fun _ => if_neg (by rw [stopped]; exact Bool.false_ne_true)
  rw [tick]
  exact ⟨fun ⟨_, h⟩ => (Option.some.inj h).symm, fun h => ⟨0, by rw [h]⟩⟩

/-- **An operation returns if and only if there are its calls.** -/
theorem returns_perform_iff {o : Operation} :
    Returns (v.perform o) v' ↔ ∃ answers, v.Makes o answers v' := by
  cases o with
  | step =>
    constructor
    · rintro ⟨fuel, h⟩
      change (v.step fuel).map Prod.snd = some v' at h
      rw [step_eq, Option.map_map] at h
      obtain ⟨⟨answer, g⟩, call, rfl⟩ := Option.map_eq_some_iff.mp h
      exact ⟨_, .step ⟨fuel, call⟩⟩
    · rintro ⟨_, ⟨fuel, call⟩⟩
      refine ⟨fuel, ?_⟩
      change (v.step fuel).map Prod.snd = _
      rw [step_eq, show v.game.next fuel = _ from call]
      rfl
  | tick =>
    cases running : v.running with
    | true =>
      rw [returns_tick_running running, batch_iff]
      refine exists_congr fun answers => ⟨.tick running, fun makes => ?_⟩
      cases makes with
      | idle stopped => cases running.symm.trans stopped
      | tick _ calls => exact calls
    | false =>
      rw [returns_tick_stopped running]
      constructor
      · rintro rfl
        exact ⟨_, .idle running⟩
      · rintro ⟨_, makes⟩
        cases makes with
        | idle => rfl
        | tick running' => cases running.symm.trans running'
  | toggleRunning =>
    constructor
    · rintro ⟨_, h⟩
      cases h
      exact ⟨_, .toggleRunning⟩
    · rintro ⟨_, ⟨⟩⟩
      exact ⟨0, rfl⟩
  | reset =>
    constructor
    · rintro ⟨_, h⟩
      cases h
      exact ⟨_, .reset⟩
    · rintro ⟨_, ⟨⟩⟩
      exact ⟨0, rfl⟩

theorem Makes.unique {o : Operation} (makes : v.Makes o answers v') (makes' : v.Makes o more v'') :
    answers = more ∧ v' = v'' := by
  cases makes with
  | step call =>
    cases makes' with
    | step call' =>
      obtain ⟨rfl, rfl⟩ := call.unique call'
      exact ⟨rfl, rfl⟩
  | idle stopped =>
    cases makes' with
    | idle => exact ⟨rfl, rfl⟩
    | tick running => cases stopped.symm.trans running
  | tick running calls =>
    cases makes' with
    | idle stopped => cases stopped.symm.trans running
    | tick _ calls' => exact calls.unique calls'
  | toggleRunning =>
    cases makes'
    exact ⟨rfl, rfl⟩
  | reset =>
    cases makes'
    exact ⟨rfl, rfl⟩

/-! ## What calls do to a viewer -/

/-- **The viewer has gone on by these calls.** -/
structure Advances (v : Viewer) (answers : List Answer) (v' : Viewer) : Prop where
  calls : v.game.Calls answers v'.game
  events : v'.events = v.events + answers.countP Answer.isEvent
  stops : ∀ answer ∈ answers, answer.isEvent = false → v'.running = false
  program : v'.program = v.program
  freePlay : v'.freePlay = v.freePlay

namespace Advances

/-- What is said when an answer is heard is said of one call. -/
theorem hear (call : v.game.Next answer g) : v.Advances [answer] (v.hear (answer, g)).2 := by
  have calls : v.game.Calls [answer] g := .call call (.none g)
  match answer with
  | .ok (some e) =>
    refine ⟨calls, rfl, fun a mem event => ?_, rfl, rfl⟩
    cases List.mem_singleton.mp mem
    cases event
  | .ok none => exact ⟨calls, rfl, fun _ _ _ => rfl, rfl, rfl⟩
  | .error e => exact ⟨calls, rfl, fun _ _ _ => rfl, rfl, rfl⟩

theorem afterScore {points : Cell} (advances : v.Advances answers v') :
    v.Advances answers (v'.afterScore points) := by
  unfold Viewer.afterScore
  split
  · exact ⟨advances.calls, advances.events, fun _ _ _ => rfl, advances.program, advances.freePlay⟩
  · exact advances

/-- It is the later calls that say whether the viewer stops, if there is an event before them. -/
theorem cons (first : v.Advances [answer] v₁) (event : answer.isEvent = true)
    (rest : v₁.Advances answers v') : v.Advances (answer :: answers) v' where
  calls := first.calls.append rest.calls
  events := by
    rw [rest.events, first.events, Nat.add_assoc, ← List.countP_append, List.singleton_append]
  stops := by
    intro a mem none
    rcases List.mem_cons.mp mem with rfl | mem
    · cases event.symm.trans none
    · exact rest.stops a mem none
  program := rest.program.trans first.program
  freePlay := rest.freePlay.trans first.freePlay

/-- Without a call there is nothing to say but that the game is the same. -/
theorem none (game : v'.game = v.game) (events : v'.events = v.events)
    (program : v'.program = v.program) (freePlay : v'.freePlay = v.freePlay) :
    v.Advances [] v' where
  calls := game ▸ .none v'.game
  events := events
  stops := fun _ mem => absurd mem List.not_mem_nil
  program := program
  freePlay := freePlay

end Advances

theorem BatchCalls.advances {count : Nat} (calls : BatchCalls count v answers v') :
    v.Advances answers v' := by
  induction calls with
  | full v => exact .none rfl rfl rfl rfl
  | halted call | fails call => exact .hear call
  | scores call => exact (Advances.hear call).afterScore
  | draws call _ ih => exact (Advances.hear call).cons rfl ih

theorem Makes.advances {o : Operation} (makes : v.Makes o answers v') (goesOn : o ≠ .reset) :
    v.Advances answers v' := by
  cases makes with
  | step call => exact .hear call
  | idle => exact .none rfl rfl rfl rfl
  | tick _ calls => exact calls.advances
  | toggleRunning => exact .none rfl rfl rfl rfl
  | reset => exact absurd rfl goesOn

/-- An answer that draws a tile. -/
def Draws (answer : Answer) : Prop := ∃ x y tile, answer = .ok (some (.draw x y tile))

/-- A batch is no longer than it may be, and all its calls but the last one draw a tile. -/
theorem BatchCalls.length_le {count : Nat} (calls : BatchCalls count v answers v') :
    answers.length ≤ count ∧ ∀ a ∈ answers.dropLast, Draws a := by
  induction calls with
  | full => exact ⟨Nat.le_refl 0, fun _ mem => absurd mem List.not_mem_nil⟩
  | halted | fails | scores =>
    exact ⟨Nat.succ_le_succ (Nat.zero_le _), fun _ mem => absurd mem List.not_mem_nil⟩
  | @draws _ _ _ _ x y tile answers _ _ ih =>
    obtain ⟨length, draws⟩ := ih
    refine ⟨Nat.succ_le_succ length, fun a mem => ?_⟩
    cases answers with
    | nil => exact absurd mem List.not_mem_nil
    | cons =>
      rw [List.dropLast_cons_cons] at mem
      rcases List.mem_cons.mp mem with rfl | mem
      · exact ⟨x, y, tile, rfl⟩
      · exact draws a mem

/-- A batch that may make a call makes one. -/
theorem BatchCalls.length_pos {count : Nat} (calls : BatchCalls (count + 1) v answers v') :
    0 < answers.length := by
  cases calls <;> exact Nat.succ_pos _

/-! ## Operations, one after the other -/

/-- The answers since the last reset, after one more operation. -/
def Operation.log (answers : List Answer) (o : Operation) (more : List Answer) : List Answer :=
  match o with
  | .reset => []
  | _ => answers ++ more

/-- **These operations lead from a new viewer of the program to this one.** -/
inductive Operated (program : List Cell) (freePlay : Bool) : List Operation → Viewer → Prop
  | load : Operated program freePlay [] (load program freePlay)
  | perform {operations : List Operation} {o : Operation} {v v' : Viewer}
      (before : Operated program freePlay operations v) (performed : Returns (v.perform o) v') :
      Operated program freePlay (operations ++ [o]) v'

/-- Likewise, and these are the answers of all calls for events **since the last reset**. -/
inductive Watched (program : List Cell) (freePlay : Bool) :
    List Operation → List Answer → Viewer → Prop
  | load : Watched program freePlay [] [] (load program freePlay)
  | perform {operations : List Operation} {o : Operation} {answers more : List Answer}
      {v v' : Viewer} (before : Watched program freePlay operations answers v)
      (makes : v.Makes o more v') :
      Watched program freePlay (operations ++ [o]) (o.log answers more) v'

variable {operations : List Operation}

theorem operated_iff :
    Operated program freePlay operations v ↔
      ∃ answers, Watched program freePlay operations answers v := by
  constructor
  · intro operated
    induction operated with
    | load => exact ⟨_, .load⟩
    | perform _ performed ih =>
      obtain ⟨_, before⟩ := ih
      obtain ⟨_, makes⟩ := returns_perform_iff.mp performed
      exact ⟨_, before.perform makes⟩
  · rintro ⟨answers, watched⟩
    induction watched with
    | load => exact .load
    | perform _ makes ih => exact ih.perform (returns_perform_iff.mpr ⟨_, makes⟩)

/-- **The operations decide the answers and the viewer.** -/
theorem Watched.unique (watched : Watched program freePlay operations answers v)
    (watched' : Watched program freePlay operations more v') : answers = more ∧ v = v' := by
  induction watched generalizing more v' with
  | load =>
    generalize same : ([] : List Operation) = operations at watched'
    cases watched' with
    | load => exact ⟨rfl, rfl⟩
    | perform => exact absurd same.symm (List.append_ne_nil_of_right_ne_nil _ (List.cons_ne_nil _ _))
  | @perform operations o _ _ _ _ _ makes ih =>
    generalize same : operations ++ [o] = both at watched'
    cases watched' with
    | load => exact absurd same (List.append_ne_nil_of_right_ne_nil _ (List.cons_ne_nil _ _))
    | perform before' makes' =>
      obtain ⟨rfl, last⟩ := List.append_inj' same rfl
      cases last
      obtain ⟨rfl, rfl⟩ := ih before'
      obtain ⟨rfl, rfl⟩ := makes.unique makes'
      exact ⟨rfl, rfl⟩

/-! ## The place of the viewer in the game -/

/-- **The viewer stands in the game of the program** where these answers lead, and has counted the
events among them. -/
structure Stands (program : List Cell) (freePlay : Bool) (answers : List Answer) (v : Viewer) :
    Prop where
  game : (start program freePlay).Calls answers v.game
  events : v.events = answers.countP Answer.isEvent
  sameProgram : v.program = program
  sameFreePlay : v.freePlay = freePlay

theorem Stands.reset (stands : Stands program freePlay answers v) :
    v.reset =
      { load program freePlay with status := v.reset.status, shouldQuit := v.shouldQuit } := by
  obtain ⟨-, -, rfl, rfl⟩ := stands
  rfl

/-- **One operation keeps it.** -/
theorem Stands.perform {o : Operation} (stands : Stands program freePlay answers v)
    (makes : v.Makes o more v') : Stands program freePlay (o.log answers more) v' := by
  by_cases reset : o = .reset
  · subst reset
    cases makes
    rw [stands.reset]
    exact ⟨.none _, rfl, rfl, rfl⟩
  · have advances := makes.advances reset
    have log : o.log answers more = answers ++ more := by
      cases o with
      | reset => exact absurd rfl reset
      | _ => rfl
    rw [log]
    exact
      { game := stands.game.append advances.calls
        events := by rw [advances.events, stands.events, List.countP_append]
        sameProgram := advances.program.trans stands.sameProgram
        sameFreePlay := advances.freePlay.trans stands.sameFreePlay }

theorem Watched.stands (watched : Watched program freePlay operations answers v) :
    Stands program freePlay answers v := by
  induction watched with
  | load => exact ⟨.none _, rfl, rfl, rfl⟩
  | perform _ makes ih => exact ih.perform makes

/-! ## The statement -/

/-- **The viewer shows the game of the program** after these answers, and will go on to do so. -/
structure Shows (program : List Cell) (freePlay : Bool) (answers : List Answer) (v : Viewer) : Prop
    extends Stands program freePlay answers v where
  step : ∀ v', Returns (v.perform .step) v' → ∃ answer, v.Makes .step [answer] v' ∧
    (answer.isEvent = false → v'.running = false)
  idle : v.running = false → ∀ v', Returns (v.perform .tick) v' ↔ v' = v
  tick : v.running = true → ∀ v', Returns (v.perform .tick) v' → ∃ more, v.Makes .tick more v' ∧
    1 ≤ more.length ∧ more.length ≤ 64 ∧ (∀ answer ∈ more.dropLast, Draws answer) ∧
    ∀ answer ∈ more, answer.isEvent = false → v'.running = false
  reset : v.reset =
    { load program freePlay with status := v.reset.status, shouldQuit := v.shouldQuit }
  /-- Paying for the game does not fail, so that there is nothing that a reset leaves undone. -/
  paid : (Game.load program).machine.poke 0 Game.quarters =
    .ok (Game.load program).insertQuarters.machine
  /-- Other viewers of the game, and this one at other times, see the same answers. -/
  same : ∀ operations' answers' v', Watched program freePlay operations' answers' v' →
    answers.length ≤ answers'.length →
    answers <+: answers' ∧ v.game.Calls (answers'.drop answers.length) v'.game

/-- **Whatever is done with a viewer, it shows a first part of the one game.**  The operations
decide which calls for events there have been since the last reset, and the viewer is what these
calls make of it. -/
theorem shows_one_game (operated : Operated program freePlay operations v) :
    ∃ answers, (∀ more, Watched program freePlay operations more v ↔ more = answers) ∧
      Shows program freePlay answers v := by
  obtain ⟨answers, watched⟩ := operated_iff.mp operated
  have stands := watched.stands
  refine ⟨answers, fun more => ⟨fun other => (other.unique watched).1, ?_⟩, ?_⟩
  · rintro rfl
    exact watched
  · exact
      { stands with
        step := by
          intro v' returns
          obtain ⟨_, makes⟩ := returns_perform_iff.mp returns
          have stops := (makes.advances Operation.noConfusion).stops
          cases makes with
          | step call => exact ⟨_, .step call, stops _ List.mem_cons_self⟩
        idle := fun stopped _ => returns_tick_stopped stopped
        tick := by
          intro running v' returns
          obtain ⟨more, makes⟩ := returns_perform_iff.mp returns
          have stops := (makes.advances Operation.noConfusion).stops
          cases makes with
          | idle stopped => cases running.symm.trans stopped
          | tick _ calls =>
            obtain ⟨length, draws⟩ := calls.length_le
            exact ⟨more, .tick running calls, calls.length_pos, length, draws, stops⟩
        reset := stands.reset
        paid := Game.poke_quarters _
        same := fun _ _ _ other le => stands.game.goesOn other.stands.game le }

/-- A tick goes on until the game is cleared, and stops; after a reset the block is drawn again. -/
theorem shows_cleared_game_again :
    ∃ cleared v, Operated oneBlock false [.toggleRunning, .tick] cleared ∧
      cleared.running = false ∧ cleared.events = 3 ∧ cleared.game.screen.score = 7 ∧
      Shows oneBlock false [.ok (some (.draw 0 0 .block)), .ok (some (.draw 0 0 .empty)),
        .ok (some (.score 7))] cleared ∧
      Operated oneBlock false [.toggleRunning, .tick, .reset, .step] v ∧ v.events = 1 ∧
      Shows oneBlock false [.ok (some (.draw 0 0 .block))] v := by
  obtain ⟨g₁, drawn, g₂, removed, g₃, scored, gone⟩ :
      ∃ g₁, (start oneBlock false).next 8 = some (.ok (some (.draw 0 0 .block)), g₁) ∧
        ∃ g₂, g₁.next 8 = some (.ok (some (.draw 0 0 .empty)), g₂) ∧
          ∃ g₃, g₂.next 8 = some (.ok (some (.score 7)), g₃) ∧ g₃.isCleared = true :=
    ⟨_, rfl, _, rfl, _, rfl, rfl⟩
  have ticked : Watched oneBlock false [.toggleRunning, .tick] [.ok (some (.draw 0 0 .block)),
      .ok (some (.draw 0 0 .empty)), .ok (some (.score 7))] _ :=
    (Watched.load.perform .toggleRunning).perform
      (.tick rfl (.draws ⟨8, drawn⟩ (.draws ⟨8, removed⟩ (.scores ⟨8, scored⟩))))
  rw [afterScore_of_cleared (by exact gone)] at ticked
  have restarted := (ticked.perform .reset).perform (.step ⟨8, drawn⟩)
  have operated := operated_iff.mpr ⟨_, ticked⟩
  have operated' := operated_iff.mpr ⟨_, restarted⟩
  obtain ⟨answers, decided, shows⟩ := shows_one_game operated
  obtain rfl := (decided _).mp ticked
  obtain ⟨answers, decided, shows'⟩ := shows_one_game operated'
  obtain rfl := (decided _).mp restarted
  exact ⟨_, _, operated, rfl, shows.events, Game.score_of_next ⟨8, scored⟩, shows, operated',
    shows'.events, shows'⟩

end Viewer
end IntcodeMachine
