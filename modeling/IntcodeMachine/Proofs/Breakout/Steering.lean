import IntcodeMachine.Proofs.Breakout.Bookkeeping
import IntcodeMachine.Proofs.Breakout.Calls
import IntcodeMachine.Proofs.Machine.Executing

/-! # The joystick follows the ball

Ball and paddle are known from the events, the joystick from ball and paddle, and the
input register from the joystick.  The three are changed at different moments, but
never between two calls for events, whatever these answer: `Steered` holds at the
start, one call keeps it (`Steered.next`), and everything done with a game is calls.

In the middle of a call it is the program that runs, and reads the register when it
likes.  The machines that there are then (`Amid`) differ from the one at the start of
the call by steps, which leave the register alone, and a call takes no other steps
(`Next.closes`).  So the program reads what the answers before this call say.
-/
namespace IntcodeMachine

/-! ## Where the joystick belongs -/

/-- **The position of the joystick**, given the columns in which ball and paddle were drawn last:
it moves the paddle towards the ball, and is neutral as long as one of them has not been drawn. -/
def Joystick.towards (ball paddle : Option Cell) : Joystick :=
  match ball, paddle with
  | some ball, some paddle =>
    if ball.toInt < paddle.toInt then .left
    else if ball.toInt = paddle.toInt then .neutral
    else .right
  | _, _ => .neutral

theorem Joystick.towards_eq_track (ball paddle : Cell) :
    towards (some ball) (some paddle) = track ball paddle := by
  have less : ∀ a b : Cell, a < b ↔ a.toInt < b.toInt := fun _ _ => Int64.lt_iff_toInt_lt
  simp only [towards, track, less]
  rcases Int.lt_trichotomy ball.toInt paddle.toInt with h | h | h
  · rw [if_pos h, if_pos h]
  · rw [if_neg (by omega), if_pos h, if_neg (by omega), if_neg (by omega)]
  · rw [if_neg (by omega), if_neg (by omega), if_neg (by omega), if_pos h]

namespace Game

/-- The column in which an answer says that a tile has been drawn. -/
def Answer.column? (tile : Tile) : Answer → Option Cell
  | .ok (some (.draw x _ drawn)) => if drawn = tile then some x else none
  | _ => none

variable {g g' : Game} {answers : List Answer} {answer : Answer}

section Aim

theorem ball_aim (g : Game) : g.aim.ball = g.ball := by
  unfold aim
  split <;> rfl

theorem paddle_aim (g : Game) : g.aim.paddle = g.paddle := by
  unfold aim
  split <;> rfl

theorem joystick_aim (unknown : g.ball = none ∨ g.paddle = none → g.joystick = .neutral) :
    g.aim.joystick = .towards g.ball g.paddle := by
  unfold aim
  split
  · rename_i ball paddle hb hp
    rw [hb, hp, Joystick.towards_eq_track]
  · rename_i missing
    cases hb : g.ball with
    | none => exact unknown (.inl hb)
    | some ball =>
      cases hp : g.paddle with
      | none => exact unknown (.inr hp)
      | some paddle => exact absurd hp (missing ball paddle hb)

theorem register_aim (register : g.machine.channel.input = some g.joystick.value) :
    g.aim.machine.channel.input = some g.aim.joystick.value := by
  unfold aim
  split
  · rfl
  · exact register

/-- A drawing makes ball and paddle known where it draws one, and aims. -/
theorem after_draw (g : Game) (x y : Cell) (tile : Tile) :
    g.after (.draw x y tile) =
      aim { g with
        screen := g.screen.after (.draw x y tile)
        ball := (Answer.column? .ball (.ok (some (.draw x y tile)))).or g.ball
        paddle := (Answer.column? .paddle (.ok (some (.draw x y tile)))).or g.paddle } := by
  cases tile <;> rfl

/-- An event changes nothing of the machine but its input register. -/
theorem sameButInput_after (g : Game) (e : Event) : g.machine.SameButInput (g.after e).machine := by
  cases e with
  | score points => exact ⟨rfl, rfl, rfl, rfl, rfl, rfl, rfl⟩
  | draw x y tile =>
    rw [after_draw, aim]
    split <;> exact ⟨rfl, rfl, rfl, rfl, rfl, rfl, rfl⟩

end Aim

/-! ## In the middle of a call -/

/-- **A machine in the middle of a call**: it runs, and there have been fewer than three outputs
since the call. -/
inductive Amid (g : Game) : Machine → Prop
  | start (running : g.machine.status = .running) : Amid g g.machine
  | step {m : Machine} (before : Amid g m) (running : m.step.2.status = .running)
      (few : m.step.2.outputs.size < g.machine.outputs.size + 3) : Amid g m.step.2

/-- **The step with which a call closes**: it is the step of a machine in the middle of the call,
and its machine is in the middle no longer. A fault is that of this step. -/
def Closes (g : Game) (r : Result (Option Triple)) : Prop :=
  ∃ m, g.Amid m ∧ r.2 = m.step.2 ∧
    (m.step.2.status ≠ .running ∨ g.machine.outputs.size + 3 ≤ m.step.2.outputs.size) ∧
    ∀ fault, r.1 = .error fault → m.step.1 = .error fault

namespace Amid

variable {m : Machine}

theorem running (amid : g.Amid m) : m.status = .running := by
  cases amid <;> assumption

theorem few (amid : g.Amid m) : m.outputs.size < g.machine.outputs.size + 3 := by
  cases amid with
  | start => omega
  | step _ _ few => exact few

/-- The register is what it was when the call was made. -/
theorem input (amid : g.Amid m) : m.channel.input = g.machine.channel.input := by
  induction amid with
  | start => rfl
  | step _ _ _ ih => rw [Machine.input_step, ih]

/-- The last step of a run to an output in the middle of a call. -/
theorem last_step {fuel : Nat} {r : Result Outcome} (amid : g.Amid m)
    (ran : m.runToOutput fuel = some r) :
    ∃ m₁, g.Amid m₁ ∧ r.2 = m₁.step.2 ∧ ∀ fault, r.1 = .error fault → m₁.step.1 = .error fault := by
  unfold Machine.runToOutput at ran
  induction fuel generalizing m with
  | zero =>
    rw [Machine.stepsToOutput_zero (by rw [amid.running]; exact Status.noConfusion)] at ran
    cases ran
  | succ fuel ih =>
    rw [Machine.stepsToOutput_succ (by rw [amid.running]; exact Status.noConfusion)] at ran
    cases step : m.step with
    | mk result m' =>
      rw [step] at ran
      cases result with
      | error fault =>
        cases ran
        exact ⟨m, amid, by rw [step], fun _ h => by cases h; rw [step]⟩
      | ok i =>
        rcases Machine.outputs_of_step_ok step with ⟨value, outputs, -⟩ | ⟨outputs, -⟩
        · simp only [outputs, Array.getElem?_push_size] at ran
          cases ran
          exact ⟨m, amid, by rw [step], fun _ h => by cases h⟩
        · have none : m'.outputs[m.outputs.size]? = none := by
            rw [outputs]
            exact Array.getElem?_size
          simp only [none] at ran
          by_cases halted : m'.status = .halted
          · rw [Machine.stepsToOutput_halted halted] at ran
            cases ran
            exact ⟨m, amid, by rw [step], fun _ h => by cases h⟩
          · -- The step was no output, so the run goes on in the middle of the call.
            have running : m'.status = .running := by
              cases status : m'.status with
              | running => rfl
              | halted => exact absurd status halted
              | faulted => exact absurd status (Machine.not_faulted_of_step_ok step)
            have amid' : g.Amid m' := by
              have := Amid.step amid
              rw [step] at this
              exact this running (by rw [outputs]; exact amid.few)
            rw [← outputs] at ran
            exact ih amid' ran

/-- One more output, if there is one, leaves it to the rest how the call closes. -/
theorem closes_thenOutput {fuel : Nat} {rest : Cell → Machine → Option (Result (Option Triple))}
    {r : Result (Option Triple)} (amid : g.Amid m)
    (goesOn : ∀ value m₁, g.Amid m₁ → m₁.step.2.status = .running →
      m₁.step.2.outputs.size = m.outputs.size + 1 → rest value m₁.step.2 = some r → g.Closes r)
    (h : (m.runToOutput fuel).bind (Machine.thenOutput rest) = some r) : g.Closes r := by
  obtain ⟨r', ran, h⟩ := Option.bind_eq_some_iff.mp h
  obtain ⟨m₁, amid₁, last, error⟩ := amid.last_step ran
  cases Machine.runToOutput_surfaces ran with
  | output running outputs =>
    obtain rfl := last
    refine goesOn _ m₁ amid₁ running ?_ h
    rw [outputs, Array.size_push]
  | halted halted =>
    obtain rfl := last
    cases h
    exact ⟨m₁, amid₁, rfl, .inl (by rw [halted]; exact Status.noConfusion), fun _ h => by cases h⟩
  | faulted faulted =>
    obtain rfl := last
    cases h
    exact ⟨m₁, amid₁, rfl, .inl (by rw [faulted]; exact Status.noConfusion),
      fun fault h => error fault (by cases h; rfl)⟩

end Amid

theorem closes_of_runToTriple {fuel : Nat} {r : Result (Option Triple)}
    (running : g.machine.status = .running) (ran : g.machine.runToTriple fuel = some r) :
    g.Closes r := by
  rw [Machine.runToTriple_eq] at ran
  refine (Amid.start running).closes_thenOutput ?_ ran
  intro x m₁ amid₁ running₁ outputs₁ ran
  have amid₁ := Amid.step amid₁ running₁ (by omega)
  refine amid₁.closes_thenOutput ?_ ran
  intro y m₂ amid₂ running₂ outputs₂ ran
  have amid₂ := Amid.step amid₂ running₂ (by omega)
  refine amid₂.closes_thenOutput ?_ ran
  intro value m₃ amid₃ running₃ outputs₃ ran
  cases ran
  exact ⟨m₃, amid₃, rfl, .inr (by omega), fun _ h => by cases h⟩

theorem hear_of_event {t : Triple} {m : Machine} {e : Event} (said : t.event = .ok e) :
    g.hear (.ok (some t), m) = (.ok (some e), { g with machine := m }.after e) := by
  simp only [hear, said]

theorem hear_of_event_error {t : Triple} {m : Machine} {e : GameError}
    (said : t.event = .error e) :
    g.hear (.ok (some t), m) = (.error e, { g with machine := m }) := by
  simp only [hear, said]

/-- **What a game makes of what its machine has said**: it does an event, and of all else it only
tells. -/
inductive Heard (g : Game) (r : Result (Option Triple)) : Answer → Game → Prop
  | event (e : Event) : Heard g r (.ok (some e)) ({ g with machine := r.2 }.after e)
  | told {answer : Answer} (column : ∀ tile, answer.column? tile = none)
      (error : ∀ fault, answer = .error (.fault fault) → r.1 = .error fault) :
      Heard g r answer { g with machine := r.2 }

theorem heard_hear (g : Game) (r : Result (Option Triple)) :
    g.Heard r (g.hear r).1 (g.hear r).2 := by
  obtain ⟨result, m⟩ := r
  match result with
  | .error fault => exact .told (fun _ => rfl) (fun _ same => by cases same; rfl)
  | .ok none => exact .told (fun _ => rfl) (fun _ same => by cases same)
  | .ok (some t) =>
    cases said : t.event with
    | ok e =>
      rw [hear_of_event said]
      exact .event e
    | error e =>
      rw [hear_of_event_error said]
      refine .told (fun _ => rfl) fun fault same => ?_
      cases same
      cases (Triple.of_event_error said g.screen).1

/-- **A call takes the steps in the middle of it**, and none if the machine does not run. -/
theorem Next.closes (call : g.Next answer g') :
    (g.machine.status ≠ .running ∧ g' = g ∧
      (answer = .ok none ∨ answer = .error (.fault (.notRunning .faulted)))) ∨
    ∃ r, g.Heard r answer g' ∧ g.Closes r := by
  cases status : g.machine.status with
  | running =>
    obtain ⟨fuel, h⟩ := call
    change g.next fuel = some (answer, g') at h
    rw [next_eq] at h
    obtain ⟨r, ran, heard⟩ := Option.map_eq_some_iff.mp h
    have := g.heard_hear r
    rw [heard] at this
    exact .inr ⟨r, this, closes_of_runToTriple status ran⟩
  | halted =>
    obtain ⟨rfl, rfl⟩ := call.unique (next_halted status)
    exact .inl ⟨Status.noConfusion, rfl, .inl rfl⟩
  | faulted =>
    obtain ⟨rfl, rfl⟩ := call.unique (next_faulted status)
    exact .inl ⟨Status.noConfusion, rfl, .inr rfl⟩

/-! ## Between two calls -/

/-- **Ball, paddle, joystick and register agree** with the answers so far. -/
structure Steered (answers : List Answer) (g : Game) : Prop where
  ball : g.ball = latest (Answer.column? .ball) answers
  paddle : g.paddle = latest (Answer.column? .paddle) answers
  joystick : g.joystick = .towards g.ball g.paddle
  register : g.machine.channel.input = some g.joystick.value

theorem steered_load (program : List Cell) : Steered [] (load program) := ⟨rfl, rfl, rfl, rfl⟩

namespace Steered

/-- The machine may have gone on, if its register is the same. -/
theorem turn {m : Machine} (steered : Steered answers g)
    (input : m.channel.input = g.machine.channel.input) :
    Steered answers { g with machine := m } :=
  ⟨steered.ball, steered.paddle, steered.joystick, input.trans steered.register⟩

/-- An answer that draws neither ball nor paddle tells nothing. -/
theorem quiet (steered : Steered answers g) (ball : answer.column? .ball = none)
    (paddle : answer.column? .paddle = none) : Steered (answers ++ [answer]) g := by
  refine ⟨?_, ?_, steered.joystick, steered.register⟩
  · rw [latest_concat, ball, Option.none_or]
    exact steered.ball
  · rw [latest_concat, paddle, Option.none_or]
    exact steered.paddle

theorem event (steered : Steered answers g) (e : Event) :
    Steered (answers ++ [.ok (some e)]) (g.after e) := by
  cases e with
  | score points =>
    have same : Steered (answers ++ [.ok (some (.score points))]) g := steered.quiet rfl rfl
    exact ⟨same.ball, same.paddle, same.joystick, same.register⟩
  | draw x y tile =>
    rw [after_draw]
    refine ⟨?_, ?_, ?_, register_aim steered.register⟩
    · rw [ball_aim, latest_concat, ← steered.ball]
    · rw [paddle_aim, latest_concat, ← steered.paddle]
    · rw [ball_aim, paddle_aim]
      refine joystick_aim fun unknown => ?_
      -- What is not known now was not known before, either.
      show g.joystick = .neutral
      rw [steered.joystick]
      rcases unknown with none | none
      · rw [(Option.or_eq_none_iff.mp none).2]
        rfl
      · rw [(Option.or_eq_none_iff.mp none).2]
        cases g.ball <;> rfl

/-- **One call keeps it.** -/
theorem next (steered : Steered answers g) (call : g.Next answer g') :
    Steered (answers ++ [answer]) g' := by
  rcases call.closes with ⟨-, rfl, rfl | rfl⟩ | ⟨r, heard, m, amid, last, -, -⟩
  · exact steered.quiet rfl rfl
  · exact steered.quiet rfl rfl
  · have turned : Steered answers { g with machine := r.2 } :=
      steered.turn (by rw [last, Machine.input_step, amid.input])
    cases heard with
    | event e => exact turned.event e
    | told column => exact turned.quiet (column .ball) (column .paddle)

end Steered

theorem Reaches.steered {program : List Cell} (reached : (load program).Reaches answers g) :
    Steered answers g := by
  induction reached with
  | start => exact steered_load program
  | next _ call ih => exact ih.next call
  | quarters _ ih => exact ⟨ih.ball, ih.paddle, ih.joystick, ih.register⟩

/-! ## The statement -/

/-- **The joystick follows the ball, and the program reads the joystick**, given all answers so
far. -/
structure Follows (answers : List Answer) (g : Game) : Prop where
  register : g.machine.channel.input = some g.joystick.value
  /-- These values tell the program to move to the left, -/
  left : g.joystick = .left → g.machine.channel.input = some (-1)
  /-- to stay, -/
  neutral : g.joystick = .neutral → g.machine.channel.input = some 0
  /-- and to move to the right. -/
  right : g.joystick = .right → g.machine.channel.input = some 1
  joystick : g.joystick =
    .towards (latest (Answer.column? .ball) answers) (latest (Answer.column? .paddle) answers)
  /-- Only a drawing of ball or paddle moves the joystick. -/
  still : ∀ answer g', g.Next answer g' → answer.column? .ball = none →
    answer.column? .paddle = none → g'.joystick = g.joystick
  /-- In the middle of a call the program reads the joystick, -/
  reads : ∀ m, g.Amid m → m.channel.input = some g.joystick.value ∧
    (∀ i m', m.step = (.ok i, m') → i.opcode = .input →
      Executed.Stores ⟨m, i, m'⟩ g.joystick.value) ∧
    ∀ counter, m.step.1 ≠ .error (.missingInput counter)
  /-- and there it is during the whole call, up to the last step. -/
  calls : ∀ answer g', g.Next answer g' →
    g.machine.status ≠ .running ∧ g' = g ∨
      ∃ m, g.Amid m ∧ m.step.2.SameButInput g'.machine ∧
        (m.step.2.status ≠ .running ∨ g.machine.outputs.size + 3 ≤ m.step.2.outputs.size)
  supplied : ∀ answer g', g.Next answer g' →
    ∀ counter, answer ≠ .error (.fault (.missingInput counter))
  /-- A loop returns if and only if there are the calls that it makes. -/
  plays : ∀ {ρ : Type} (renderer : Renderer ρ) (r : ρ) (out : Except GameError Cell × ρ × Game),
    PlayReturns renderer r g out ↔ ∃ more, PlayCalls renderer r g more out
  finishes : ∀ out, g.FinishReturns out ↔ ∃ more, g.FinishCalls more out

theorem Steered.reads {m : Machine} (steered : Steered answers g) (amid : g.Amid m) :
    m.channel.input = some g.joystick.value ∧
      (∀ i m', m.step = (.ok i, m') → i.opcode = .input →
        Executed.Stores ⟨m, i, m'⟩ g.joystick.value) ∧
      ∀ counter, m.step.1 ≠ .error (.missingInput counter) := by
  have register : m.channel.input = some g.joystick.value := amid.input.trans steered.register
  refine ⟨register, fun i m' step asks => ?_, ?_⟩
  · obtain ⟨value, found, stores⟩ := Machine.stores_of_step_ok step asks
    obtain rfl : g.joystick.value = value := Option.some.inj (register.symm.trans found)
    exact stores
  · exact Machine.supplied_step (by rw [register]; exact Option.some_ne_none _)

/-- An answer without a column of ball or paddle leaves the joystick where it is. -/
theorem Steered.still (steered : Steered answers g) (call : g.Next answer g')
    (ball : answer.column? .ball = none) (paddle : answer.column? .paddle = none) :
    g'.joystick = g.joystick := by
  have after := steered.next call
  rw [after.joystick, after.ball, after.paddle, latest_concat, latest_concat, ball, paddle,
    Option.none_or, Option.none_or, ← steered.ball, ← steered.paddle, ← steered.joystick]

theorem Heard.machine {r : Result (Option Triple)} (heard : g.Heard r answer g') :
    r.2.SameButInput g'.machine := by
  cases heard with
  | event e => exact sameButInput_after { g with machine := r.2 } e
  | told => exact ⟨rfl, rfl, rfl, rfl, rfl, rfl, rfl⟩

theorem Steered.supplied {counter : Cell} (steered : Steered answers g)
    (call : g.Next (.error (.fault (.missingInput counter))) g') : False := by
  rcases call.closes with ⟨-, -, stays | stays⟩ | ⟨r, heard, m, amid, -, -, error⟩
  · cases stays
  · cases stays
  · cases heard with
    | told _ fault => exact (steered.reads amid).2.2 counter (error _ (fault _ rfl))

/-- **The joystick is always aimed at the latest known ball, and the program always reads it.**
Whatever a game has been led to, by calls for events, by its loops, and by paying for it, its
joystick is where the answers so far say, its register holds the value of the joystick, and until
the next answer the program reads nothing else and never lacks input. -/
theorem joystick_follows_ball {program : List Cell} (led : (load program).Leads answers g) :
    Follows answers g := by
  have steered := led.reaches.steered
  exact
    { register := steered.register
      left := fun left => by rw [steered.register, left]; rfl
      neutral := fun neutral => by rw [steered.register, neutral]; rfl
      right := fun right => by rw [steered.register, right]; rfl
      joystick := by rw [steered.joystick, steered.ball, steered.paddle]
      still := fun _ _ call ball paddle => steered.still call ball paddle
      reads := fun _ amid => steered.reads amid
      calls := fun _ _ call => by
        rcases call.closes with ⟨stopped, stays, -⟩ | ⟨r, heard, m, amid, last, closed, -⟩
        · exact .inl ⟨stopped, stays⟩
        · exact .inr ⟨m, amid, last ▸ heard.machine, closed⟩
      supplied := by
        rintro _ g' call counter rfl
        exact steered.supplied call
      plays := fun _ _ _ => playReturns_iff
      finishes := fun _ => finishReturns_iff }

/-- The ball is to the right of the paddle, and the program asks for input in the middle of the
third triple. -/
theorem follows_ball_to_the_right :
    ∃ g m m', (load [104, 3, 104, 0, 104, 3, 104, 5, 104, 0, 104, 4, 104, -1, 3, 100, 104, 0, 4,
          100, 99]).Leads [.ok (some (.draw 3 0 .paddle)), .ok (some (.draw 5 0 .ball))] g ∧
      g.joystick = .right ∧ g.Amid m ∧
      m.step = (.ok ⟨.input, 0, 0, 0⟩, m') ∧
      Executed.Stores ⟨m, ⟨.input, 0, 0, 0⟩, m'⟩ 1 := by
  obtain ⟨g₁, first, g, second, running, middle, few, m', step⟩ :
      ∃ g₁, (load [104, 3, 104, 0, 104, 3, 104, 5, 104, 0, 104, 4, 104, -1, 3, 100, 104, 0, 4,
          100, 99]).next 8 = some (.ok (some (.draw 3 0 .paddle)), g₁) ∧
        ∃ g, g₁.next 8 = some (.ok (some (.draw 5 0 .ball)), g) ∧
          g.machine.status = .running ∧ g.machine.step.2.status = .running ∧
          g.machine.step.2.outputs.size < g.machine.outputs.size + 3 ∧
          ∃ m', g.machine.step.2.step = (.ok ⟨.input, 0, 0, 0⟩, m') :=
    ⟨_, rfl, _, rfl, by rfl, by rfl, by decide, _, rfl⟩
  have led := (Leads.start.next ⟨8, first⟩).next ⟨8, second⟩
  have follows := joystick_follows_ball led
  have right : g.joystick = .right := follows.joystick
  have amid := (Amid.start running).step middle few
  have stores := (follows.reads _ amid).2.1 _ _ step rfl
  rw [right] at stores
  exact ⟨g, _, m', led, right, amid, step, stores⟩

end Game
end IntcodeMachine
