import IntcodeMachine.Breakout.Play
import IntcodeMachine.Proofs.Breakout.Events

/-! # How a game is played

`PlayReturns` leaves the numbers of steps out of the game loop, for any renderer.  What
a loop does with the answer to one call for an event is said once (`play_eq_respond`),
and from it there is one rule for each kind of answer.  `PlayCalls` is the loop told by
the answers to the calls that it makes; that a loop returns is that there are such calls
(`playReturns_iff`).

`Plays` is what playing a game means when nothing is shown: one event after the other,
until there is none, or something fails, or a change of the score finds the game
cleared.  The relation also remembers the events and why the game ended, which the loop
forgets.  It is read off the calls (`PlayCalls.plays`).
-/
namespace IntcodeMachine
namespace Game

/-! ## The game loop with any renderer -/

section Loop
variable {ρ : Type} {renderer : Renderer ρ} {r r' : ρ} {g g₁ g' : Game}
  {out out' : Except GameError Cell × ρ × Game}

/-- What the loop does with an answer and the game that gave it. -/
def respond (renderer : Renderer ρ) (stepFuel fuel : Nat) (r : ρ) :
    Answer × Game → Option (Except GameError Cell × ρ × Game)
  | (.error e, g) => some (.error e, r, g)
  | (.ok none, g) => some (.ok g.screen.score, r, g)
  | (.ok (some (.draw ..)), g) => g.play renderer stepFuel fuel r
  | (.ok (some (.score _)), g) =>
    match renderer.render r g.screen with
    | (.error failure, r) => some (.error (.render failure), r, g)
    | (.ok (), r) =>
      if g.isCleared then some (.ok g.screen.score, r, g) else g.play renderer stepFuel fuel r

theorem play_eq_respond (stepFuel fuel : Nat) (r : ρ) (g : Game) :
    g.play renderer stepFuel (fuel + 1) r =
      (g.next stepFuel).bind (respond renderer stepFuel fuel r) := by
  rw [play]
  rcases g.next stepFuel with _ | ⟨_ | _ | _ | _, g⟩ <;> rfl

theorem respond_failure {stepFuel fuel : Nat} {points : Cell} {failure : RenderFailure}
    (fails : renderer.render r g.screen = (.error failure, r')) :
    respond renderer stepFuel fuel r (.ok (some (.score points)), g) =
      some (.error (.render failure), r', g) := by
  simp only [respond, fails]

theorem respond_shown {stepFuel fuel : Nat} {points : Cell}
    (shown : renderer.render r g.screen = (.ok (), r')) :
    respond renderer stepFuel fuel r (.ok (some (.score points)), g) =
      if g.isCleared then some (.ok g.screen.score, r', g)
      else g.play renderer stepFuel fuel r' := by
  simp only [respond, shown]

/-- With more steps the loop responds the same, if that is so of the game after the event. -/
theorem respond_mono {stepFuel stepFuel' fuel fuel' : Nat} {answered : Answer × Game}
    (mono : ∀ r (g : Game), g.play renderer stepFuel fuel r = some out →
      g.play renderer stepFuel' fuel' r = some out)
    (h : respond renderer stepFuel fuel r answered = some out) :
    respond renderer stepFuel' fuel' r answered = some out := by
  obtain ⟨answer, g⟩ := answered
  match answer with
  | .error e => exact h
  | .ok none => exact h
  | .ok (some (.draw ..)) => exact mono r g h
  | .ok (some (.score _)) =>
    cases rendered : renderer.render r g.screen with
    | mk result r' =>
      cases result with
      | error failure =>
        rw [respond_failure rendered] at h ⊢
        exact h
      | ok _ =>
        rw [respond_shown rendered] at h ⊢
        by_cases cleared : g.isCleared = true
        · rw [if_pos cleared] at h ⊢
          exact h
        · rw [if_neg cleared] at h ⊢
          exact mono r' g h

theorem play_mono {stepFuel stepFuel' fuel fuel' : Nat} (steps : stepFuel ≤ stepFuel')
    (events : fuel ≤ fuel') (h : g.play renderer stepFuel fuel r = some out) :
    g.play renderer stepFuel' fuel' r = some out := by
  induction fuel generalizing g r fuel' with
  | zero => cases h
  | succ fuel ih =>
    obtain ⟨fuel', rfl⟩ : ∃ k, fuel' = k + 1 := ⟨fuel' - 1, by omega⟩
    rw [play_eq_respond] at h ⊢
    obtain ⟨answered, call, h⟩ := Option.bind_eq_some_iff.mp h
    refine Option.bind_eq_some_iff.mpr ⟨answered, g.steady_next.le steps call, ?_⟩
    exact respond_mono (fun r g h => ih (Nat.le_of_succ_le_succ events) h) h

/-- **Playing with a renderer in this state returns this.** -/
def PlayReturns (renderer : Renderer ρ) (r : ρ) (g : Game)
    (out : Except GameError Cell × ρ × Game) : Prop :=
  ∃ stepFuel fuel, g.play renderer stepFuel fuel r = some out

theorem PlayReturns.unique (h : PlayReturns renderer r g out) (h' : PlayReturns renderer r g out') :
    out = out' := by
  obtain ⟨stepFuel, fuel, h⟩ := h
  obtain ⟨stepFuel', fuel', h'⟩ := h'
  have h := play_mono (Nat.le_max_left stepFuel stepFuel') (Nat.le_max_left fuel fuel') h
  have h' := play_mono (Nat.le_max_right stepFuel stepFuel') (Nat.le_max_right fuel fuel') h'
  exact Option.some.inj (h.symm.trans h')

theorem PlayReturns.iff (h : PlayReturns renderer r g out) :
    PlayReturns renderer r g out' ↔ out' = out :=
  ⟨fun h' => h'.unique h, fun e => e ▸ h⟩

/-- The loop returns if it has enough steps for the next event, and for what it does then. -/
theorem playReturns_of_respond {answer : Answer} (call : g.Next answer g₁)
    (rest : ∃ stepFuel fuel, respond renderer stepFuel fuel r (answer, g₁) = some out) :
    PlayReturns renderer r g out := by
  obtain ⟨enough, call⟩ := call
  obtain ⟨stepFuel, fuel, rest⟩ := rest
  refine ⟨max enough stepFuel, fuel + 1, ?_⟩
  rw [play_eq_respond, g.steady_next.le (Nat.le_max_left ..) call]
  exact respond_mono (fun r g h => play_mono (Nat.le_max_right ..) (Nat.le_refl _) h) rest

theorem playReturns_of_none (call : g.Next (.ok none) g') :
    PlayReturns renderer r g (.ok g'.screen.score, r, g') :=
  playReturns_of_respond call ⟨0, 0, rfl⟩

theorem playReturns_of_error {e : GameError} (call : g.Next (.error e) g') :
    PlayReturns renderer r g (.error e, r, g') :=
  playReturns_of_respond call ⟨0, 0, rfl⟩

theorem playReturns_of_draw {x y : Cell} {tile : Tile}
    (call : g.Next (.ok (some (.draw x y tile))) g₁) (rest : PlayReturns renderer r g₁ out) :
    PlayReturns renderer r g out :=
  playReturns_of_respond call rest

/-- A frame that cannot be shown is the end, after the event has been applied. -/
theorem playReturns_of_failure {points : Cell} {failure : RenderFailure}
    (call : g.Next (.ok (some (.score points))) g₁)
    (fails : renderer.render r g₁.screen = (.error failure, r')) :
    PlayReturns renderer r g (.error (.render failure), r', g₁) :=
  playReturns_of_respond call ⟨0, 0, respond_failure fails⟩

theorem playReturns_of_cleared {points : Cell} (call : g.Next (.ok (some (.score points))) g₁)
    (shown : renderer.render r g₁.screen = (.ok (), r')) (cleared : g₁.isCleared = true) :
    PlayReturns renderer r g (.ok g₁.screen.score, r', g₁) :=
  playReturns_of_respond call ⟨0, 0, (respond_shown shown).trans (if_pos cleared)⟩

theorem playReturns_of_score {points : Cell} (call : g.Next (.ok (some (.score points))) g₁)
    (shown : renderer.render r g₁.screen = (.ok (), r')) (uncleared : g₁.isCleared = false)
    (rest : PlayReturns renderer r' g₁ out) : PlayReturns renderer r g out := by
  obtain ⟨stepFuel, fuel, rest⟩ := rest
  refine playReturns_of_respond call ⟨stepFuel, fuel, ?_⟩
  rw [respond_shown shown, if_neg (by rw [uncleared]; decide)]
  exact rest

/-! ## The calls that the loop makes -/

/-- **Playing with a renderer makes calls with these answers** and returns this. -/
inductive PlayCalls (renderer : Renderer ρ) :
    ρ → Game → List Answer → Except GameError Cell × ρ × Game → Prop
  | halted {r : ρ} {g g' : Game} (call : g.Next (.ok none) g') :
      PlayCalls renderer r g [.ok none] (.ok g'.screen.score, r, g')
  | fails {r : ρ} {g g' : Game} {e : GameError} (call : g.Next (.error e) g') :
      PlayCalls renderer r g [.error e] (.error e, r, g')
  | draws {r : ρ} {g g₁ : Game} {x y : Cell} {tile : Tile} {answers : List Answer}
      {out : Except GameError Cell × ρ × Game} (call : g.Next (.ok (some (.draw x y tile))) g₁)
      (rest : PlayCalls renderer r g₁ answers out) :
      PlayCalls renderer r g (.ok (some (.draw x y tile)) :: answers) out
  /-- A change of the score is shown, which may fail, -/
  | unshown {r r' : ρ} {g g' : Game} {points : Cell} {failure : RenderFailure}
      (call : g.Next (.ok (some (.score points))) g')
      (failed : renderer.render r g'.screen = (.error failure, r')) :
      PlayCalls renderer r g [.ok (some (.score points))] (.error (.render failure), r', g')
  /-- and ends the game if it is cleared. -/
  | clears {r r' : ρ} {g g' : Game} {points : Cell}
      (call : g.Next (.ok (some (.score points))) g')
      (shown : renderer.render r g'.screen = (.ok (), r')) (cleared : g'.isCleared = true) :
      PlayCalls renderer r g [.ok (some (.score points))] (.ok g'.screen.score, r', g')
  | scores {r r' : ρ} {g g₁ : Game} {points : Cell} {answers : List Answer}
      {out : Except GameError Cell × ρ × Game} (call : g.Next (.ok (some (.score points))) g₁)
      (shown : renderer.render r g₁.screen = (.ok (), r')) (uncleared : g₁.isCleared = false)
      (rest : PlayCalls renderer r' g₁ answers out) :
      PlayCalls renderer r g (.ok (some (.score points)) :: answers) out

theorem exists_playCalls {stepFuel fuel : Nat} (h : g.play renderer stepFuel fuel r = some out) :
    ∃ answers, PlayCalls renderer r g answers out := by
  induction fuel generalizing g r with
  | zero => cases h
  | succ fuel ih =>
    rw [play_eq_respond] at h
    obtain ⟨⟨answer, g₁⟩, hn, h⟩ := Option.bind_eq_some_iff.mp h
    have call : g.Next answer g₁ := ⟨stepFuel, hn⟩
    match answer with
    | .error e =>
      cases h
      exact ⟨_, .fails call⟩
    | .ok none =>
      cases h
      exact ⟨_, .halted call⟩
    | .ok (some (.draw x y tile)) =>
      obtain ⟨answers, plays⟩ := ih h
      exact ⟨_, .draws call plays⟩
    | .ok (some (.score points)) =>
      cases rendered : renderer.render r g₁.screen with
      | mk result r' =>
        cases result with
        | error failure =>
          rw [respond_failure rendered] at h
          cases h
          exact ⟨_, .unshown call rendered⟩
        | ok _ =>
          rw [respond_shown rendered] at h
          by_cases cleared : g₁.isCleared = true
          · rw [if_pos cleared] at h
            cases h
            exact ⟨_, .clears call rendered cleared⟩
          · rw [if_neg cleared] at h
            obtain ⟨answers, plays⟩ := ih h
            exact ⟨_, .scores call rendered (Bool.not_eq_true _ ▸ cleared) plays⟩

/-- **Playing returns what it does after the calls that it makes.** -/
theorem playReturns_iff :
    PlayReturns renderer r g out ↔ ∃ answers, PlayCalls renderer r g answers out := by
  constructor
  · rintro ⟨stepFuel, fuel, h⟩
    exact exists_playCalls h
  · rintro ⟨answers, plays⟩
    induction plays with
    | halted call => exact playReturns_of_none call
    | fails call => exact playReturns_of_error call
    | draws call _ ih => exact playReturns_of_draw call ih
    | unshown call failed => exact playReturns_of_failure call failed
    | clears call shown cleared => exact playReturns_of_cleared call shown cleared
    | scores call shown uncleared _ ih => exact playReturns_of_score call shown uncleared ih

end Loop
end Game

/-! ## Games that are played -/

/-- Why a game is no longer played. -/
inductive Ending
  | halted
  | cleared
  | failed (error : GameError)

/-- What playing a game to this end answers, given the score. -/
def Ending.result (ending : Ending) (score : Cell) : Except GameError Cell :=
  match ending with
  | .halted | .cleared => .ok score
  | .failed e => .error e

namespace Game

/-- **A game is played**: it gives these events, and ends for this reason as this game. -/
inductive Plays : Game → List Event → Ending → Game → Prop
  | halted {g g' : Game} (call : g.Next (.ok none) g') : Plays g [] .halted g'
  | fails {g g' : Game} {e : GameError} (call : g.Next (.error e) g') : Plays g [] (.failed e) g'
  /-- Only a change of the score can end a game that is cleared. -/
  | clears {g g' : Game} {points : Cell} (call : g.Next (.ok (some (.score points))) g')
      (cleared : g'.isCleared = true) : Plays g [.score points] .cleared g'
  | scores {g g₁ g' : Game} {points : Cell} {events : List Event} {ending : Ending}
      (call : g.Next (.ok (some (.score points))) g₁) (uncleared : g₁.isCleared = false)
      (rest : Plays g₁ events ending g') : Plays g (.score points :: events) ending g'
  | draws {g g₁ g' : Game} {x y : Cell} {tile : Tile} {events : List Event} {ending : Ending}
      (call : g.Next (.ok (some (.draw x y tile))) g₁) (rest : Plays g₁ events ending g') :
      Plays g (.draw x y tile :: events) ending g'

theorem score_of_next {g g' : Game} {points : Cell}
    (call : g.Next (.ok (some (.score points))) g') : g'.screen.score = points := by
  cases next_advances call with
  | event => rfl

/-- The calls of a loop that shows nothing play the game. -/
theorem PlayCalls.plays {g : Game} {r : Unit} {answers : List Answer}
    {out : Except GameError Cell × Unit × Game} (calls : PlayCalls .silent r g answers out) :
    ∃ events ending, g.Plays events ending out.2.2 ∧
      out.1 = ending.result out.2.2.screen.score := by
  induction calls with
  | halted call => exact ⟨[], .halted, .halted call, rfl⟩
  | fails call => exact ⟨[], .failed _, .fails call, rfl⟩
  | draws call _ ih =>
    obtain ⟨events, ending, plays, result⟩ := ih
    exact ⟨_, ending, .draws call plays, result⟩
  | unshown _ failed => cases failed
  | clears call _ cleared => exact ⟨_, .cleared, .clears call cleared, rfl⟩
  | scores call _ uncleared _ ih =>
    obtain ⟨events, ending, plays, result⟩ := ih
    exact ⟨_, ending, .scores call uncleared plays, result⟩

theorem plays_of_play {stepFuel fuel : Nat} {g g' : Game} {result : Except GameError Cell}
    (h : g.play .silent stepFuel fuel () = some (result, (), g')) :
    ∃ events ending, g.Plays events ending g' ∧ result = ending.result g'.screen.score := by
  obtain ⟨answers, calls⟩ := exists_playCalls h
  exact calls.plays

end Game
end IntcodeMachine
