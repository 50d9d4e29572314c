import IntcodeMachine.Proofs.Breakout.Playing
import IntcodeMachine.Proofs.Breakout.Replay

/-! # The calls that are made of a game

Nothing is done with a game but to pay for it and to call for its next event, either
one call at a time or in one of its two loops.  The loop that plays is told by the
answers to the calls that it makes (`PlayCalls`), and so is the one that runs through
all events (`FinishCalls`); that it returns is that there are such calls
(`finishReturns_iff`).  Whatever leads from one game to another is therefore a sequence
of calls (`Leads.reaches`), and what one call preserves holds of every game there is.
-/
namespace IntcodeMachine
namespace Game

/-- Calls for events, one after the other, give these answers and leave this game. -/
inductive Calls : Game → List Answer → Game → Prop
  | none (g : Game) : Calls g [] g
  | call {g g₁ g' : Game} {answer : Answer} {answers : List Answer} (first : g.Next answer g₁)
      (rest : Calls g₁ answers g') : Calls g (answer :: answers) g'

variable {g g₁ g' g'' : Game} {answers more : List Answer} {answer : Answer}

namespace Calls

theorem append (calls : g.Calls answers g') (later : g'.Calls more g'') :
    g.Calls (answers ++ more) g'' := by
  induction calls with
  | none => exact later
  | call first _ ih => exact .call first (ih later)

/-- **The calls of a game give one stream of answers**, of which any calls see a first part. -/
theorem unique (calls : g.Calls answers g') (calls' : g.Calls more g'')
    (length : answers.length = more.length) : answers = more ∧ g' = g'' := by
  induction calls generalizing more with
  | none =>
    obtain rfl := List.length_eq_zero_iff.mp length.symm
    cases calls'
    exact ⟨rfl, rfl⟩
  | call first _ ih =>
    cases calls' with
    | none => cases length
    | call first' rest' =>
      obtain ⟨rfl, rfl⟩ := first.unique first'
      obtain ⟨rfl, rfl⟩ := ih rest' (Nat.succ.inj length)
      exact ⟨rfl, rfl⟩

theorem reaches (calls : g'.Calls more g'') (before : g.Reaches answers g') :
    g.Reaches (answers ++ more) g'' := by
  induction calls generalizing answers with
  | none =>
    rw [List.append_nil]
    exact before
  | call first _ ih =>
    rw [List.append_cons]
    exact ih (before.next first)

end Calls

/-- **The screen of the game is what events have drawn.** -/
def Drawn (g : Game) : Prop := ∃ events : List Event, g.screen = events.foldl Screen.after {}

theorem Next.drawn (call : g.Next answer g') (drawn : g.Drawn) : g'.Drawn := by
  obtain ⟨events, screen⟩ := drawn
  cases next_advances call with
  | @event t e m =>
    refine ⟨events ++ [e], ?_⟩
    rw [screen_after, List.foldl_append, ← screen]
    rfl
  | unknown | halted | faulted => exact ⟨events, screen⟩

theorem Calls.drawn (calls : g.Calls answers g') (drawn : g.Drawn) : g'.Drawn := by
  induction calls with
  | none => exact drawn
  | call first _ ih => exact ih (first.drawn drawn)

/-! ## Playing -/

theorem PlayCalls.calls {ρ : Type} {renderer : Renderer ρ} {r : ρ}
    {out : Except GameError Cell × ρ × Game} (plays : PlayCalls renderer r g answers out) :
    g.Calls answers out.2.2 := by
  induction plays with
  | halted call | fails call | unshown call | clears call => exact .call call (.none _)
  | draws call _ ih | scores call _ _ _ ih => exact .call call ih

/-! ## Running through all events -/

section Finish
variable {out : Except GameError Unit × Game}

/-- **Running through all events makes calls with these answers** and returns this. -/
inductive FinishCalls : Game → List Answer → Except GameError Unit × Game → Prop
  | halted {g g' : Game} (call : g.Next (.ok none) g') : FinishCalls g [.ok none] (.ok (), g')
  | fails {g g' : Game} {e : GameError} (call : g.Next (.error e) g') :
      FinishCalls g [.error e] (.error e, g')
  | event {g g₁ : Game} {e : Event} {answers : List Answer} {out : Except GameError Unit × Game}
      (call : g.Next (.ok (some e)) g₁) (rest : FinishCalls g₁ answers out) :
      FinishCalls g (.ok (some e) :: answers) out

theorem FinishCalls.calls (finishes : g.FinishCalls answers out) : g.Calls answers out.2 := by
  induction finishes with
  | halted call | fails call => exact .call call (.none _)
  | event call _ ih => exact .call call ih

/-- **Running through all events of a game returns this.** -/
def FinishReturns (g : Game) (out : Except GameError Unit × Game) : Prop :=
  ∃ stepFuel fuel, g.finish stepFuel fuel = some out

/-- What running through all events does with an answer and the game that gave it. -/
def proceed (stepFuel fuel : Nat) : Answer × Game → Option (Except GameError Unit × Game)
  | (.error e, g) => some (.error e, g)
  | (.ok none, g) => some (.ok (), g)
  | (.ok (some _), g) => g.finish stepFuel fuel

theorem finish_succ (stepFuel fuel : Nat) (g : Game) :
    g.finish stepFuel (fuel + 1) = (g.next stepFuel).bind (proceed stepFuel fuel) := by
  rw [finish]
  rcases g.next stepFuel with _ | ⟨_ | _ | _, g⟩ <;> rfl

theorem exists_finishCalls {stepFuel fuel : Nat} (h : g.finish stepFuel fuel = some out) :
    ∃ answers, g.FinishCalls answers out := by
  induction fuel generalizing g with
  | zero => cases h
  | succ fuel ih =>
    rw [finish_succ] at h
    obtain ⟨⟨answer, g₁⟩, hn, h⟩ := Option.bind_eq_some_iff.mp h
    have call : g.Next answer g₁ := ⟨stepFuel, hn⟩
    match answer with
    | .error e =>
      cases h
      exact ⟨_, .fails call⟩
    | .ok none =>
      cases h
      exact ⟨_, .halted call⟩
    | .ok (some e) =>
      obtain ⟨answers, finishes⟩ := ih h
      exact ⟨_, .event call finishes⟩

/-- With enough steps for its first event the loop goes on with what the event asks for. -/
theorem Next.finish (call : g.Next answer g₁) :
    ∃ enough, ∀ stepFuel fuel, enough ≤ stepFuel →
      g.finish stepFuel (fuel + 1) = proceed stepFuel fuel (answer, g₁) := by
  obtain ⟨enough, call⟩ := call
  refine ⟨enough, fun stepFuel fuel le => ?_⟩
  rw [finish_succ, g.steady_next.le le call]
  rfl

/-- The loop needs one round for each call, and enough steps for every one of them. -/
theorem FinishCalls.finish (finishes : g.FinishCalls answers out) :
    ∃ enough, ∀ stepFuel, enough ≤ stepFuel → g.finish stepFuel answers.length = some out := by
  induction finishes with
  | halted call | fails call =>
    obtain ⟨enough, finished⟩ := call.finish
    exact ⟨enough, fun stepFuel le => finished stepFuel 0 le⟩
  | event call _ ih =>
    obtain ⟨first, finished⟩ := call.finish
    obtain ⟨others, ih⟩ := ih
    refine ⟨max first others, fun stepFuel le => ?_⟩
    rw [List.length_cons, finished _ _ (Nat.le_trans (Nat.le_max_left ..) le),
      ← ih _ (Nat.le_trans (Nat.le_max_right ..) le)]
    rfl

/-- **Running through all events returns what it does after the calls that it makes.** -/
theorem finishReturns_iff : g.FinishReturns out ↔ ∃ answers, g.FinishCalls answers out := by
  constructor
  · rintro ⟨stepFuel, fuel, h⟩
    exact exists_finishCalls h
  · rintro ⟨answers, finishes⟩
    obtain ⟨enough, h⟩ := finishes.finish
    exact ⟨enough, _, h enough (Nat.le_refl _)⟩

end Finish

/-! ## All that is done with a game -/

/-- **What is done with a game leads to another one**, its calls for events having these answers:
those made one at a time, and those made by loops, whatever renderer they play with. -/
inductive Leads (g : Game) : List Answer → Game → Prop
  | start : Leads g [] g
  | next {answers : List Answer} {answer : Answer} {g' g'' : Game} (before : Leads g answers g')
      (call : g'.Next answer g'') : Leads g (answers ++ [answer]) g''
  | play {ρ : Type} {renderer : Renderer ρ} {r r' : ρ} {answers more : List Answer}
      {result : Except GameError Cell} {g' g'' : Game} (before : Leads g answers g')
      (plays : PlayCalls renderer r g' more (result, r', g'')) : Leads g (answers ++ more) g''
  | finish {answers more : List Answer} {result : Except GameError Unit} {g' g'' : Game}
      (before : Leads g answers g') (finishes : g'.FinishCalls more (result, g'')) :
      Leads g (answers ++ more) g''
  | quarters {answers : List Answer} {g' : Game} (before : Leads g answers g') :
      Leads g answers g'.insertQuarters

theorem Leads.reaches (leads : g.Leads answers g') : g.Reaches answers g' := by
  induction leads with
  | start => exact .start
  | next _ call ih => exact ih.next call
  | play _ plays ih => exact plays.calls.reaches ih
  | finish _ finishes ih => exact finishes.calls.reaches ih
  | quarters _ ih => exact ih.quarters

end Game
end IntcodeMachine
