import IntcodeMachine.Proofs.Breakout.Bookkeeping
import IntcodeMachine.Proofs.Breakout.Calls
import IntcodeMachine.Proofs.Breakout.Sinks

/-! # Where playing a game stops

To play a game is to run through its events, but for one thing: a change of the score
that finds the game cleared is the last event that is asked for.  `play_stops_where_cleared`
compares the two loops.  Up to the first such event they make the same calls; if there
is none, they make the same calls to the end, and return the same but for the score.

Whether an event clears a screen is a matter of the events alone (`Screen.Clears`), and
so is the first one that does, whatever machine they come from.  A screen is cleared in
the sense of its counters exactly if a block has ever been drawn where it can be seen,
and at no position the last thing drawn is a block (`Screen.Cleared`).  The comparison is
an induction on the calls of the loop that runs through, in which the state of the
renderer is generalised.
-/
namespace IntcodeMachine

/-! ## Cleared screens -/

namespace Screen

variable {s : Screen} {e : Event} {events history : List Event}

/-- **The events leave no block**, although one has been drawn where it can be seen. -/
structure Cleared (events : List Event) : Prop where
  seen : ∃ x y, Visible x y ∧ Event.draw x y .block ∈ events
  gone : ∀ x y, Visible x y → latest (Event.tileFor? x y) events ≠ some .block

/-- No block is counted if there is none. -/
theorem Books.blocks_eq_zero_iff (books : Books events s) :
    s.blocks = 0 ↔ ∀ x y, s.tileAt x y ≠ .block := by
  have counted := books.blocks
  constructor
  · intro none x y block
    have mem : (x, y) ∈ s.blockPositions := block
    rw [none, Nat.cast_zero, Set.encard_eq_zero] at counted
    rw [counted] at mem
    exact Set.notMem_empty _ mem
  · intro none
    have nowhere : s.blockPositions = ∅ := Set.eq_empty_of_forall_notMem fun p => none p.1 p.2
    rw [nowhere, Set.encard_empty] at counted
    exact_mod_cast counted.symm

/-- **The counters of a screen tell whether its events leave no block.** -/
theorem Books.isCleared_iff (books : Books events s) : s.isCleared = true ↔ Cleared events := by
  have gone : (∀ x y, s.tileAt x y ≠ .block) ↔
      ∀ x y, Visible x y → latest (Event.tileFor? x y) events ≠ some .block := by
    refine forall_congr' fun x => forall_congr' fun y => ?_
    rw [books.tile]
    by_cases visible : Visible x y
    · cases latest (Event.tileFor? x y) events <;> simp [visible]
    · simp [visible]
  rw [isCleared, Bool.and_eq_true, beq_iff_eq, books.seenBlocks, books.blocks_eq_zero_iff, gone]
  exact ⟨fun ⟨seen, gone⟩ => ⟨seen, gone⟩, fun ⟨seen, gone⟩ => ⟨seen, gone⟩⟩

/-- **The events end by clearing the screen**: the last one is a change of the score, which finds
the screen cleared. -/
structure Clears (s : Screen) (events : List Event) : Prop where
  last : ∃ points, events.getLast? = some (.score points)
  cleared : (events.foldl Screen.after s).isCleared = true

/-- None of the events ends by clearing the screen. -/
def NeverClears (s : Screen) (events : List Event) : Prop :=
  ∀ first, first <+: events → ¬ s.Clears first

theorem not_clears_nil : ¬ s.Clears [] := by
  rintro ⟨⟨points, last⟩, -⟩
  cases last

theorem neverClears_nil : s.NeverClears [] := by
  intro first part
  rw [List.prefix_nil.mp part]
  exact not_clears_nil

theorem clears_cons (some : events ≠ []) : s.Clears (e :: events) ↔ (s.after e).Clears events := by
  have last : (e :: events).getLast? = events.getLast? := by
    rw [List.getLast?_cons_of_ne_nil some]
  constructor
  · intro clears
    exact ⟨last ▸ clears.last, clears.cleared⟩
  · intro clears
    exact ⟨last.symm ▸ clears.last, clears.cleared⟩

/-- One event comes first, and then the others. -/
theorem neverClears_cons (first : ¬ s.Clears [e]) (others : (s.after e).NeverClears events) :
    s.NeverClears (e :: events) := by
  intro earlier part
  match earlier with
  | [] => exact not_clears_nil
  | e' :: earlier =>
    obtain ⟨rfl, rest⟩ := List.cons_prefix_cons.mp part
    by_cases none : earlier = []
    · exact none ▸ first
    · exact fun clears => others earlier rest ((clears_cons none).mp clears)

/-- After the events of a history, these events end by clearing the screen if the last one changes
the score and all of them leave no block. -/
theorem clears_iff (drawn : s = history.foldl Screen.after {}) :
    s.Clears events ↔
      (∃ points, events.getLast? = some (.score points)) ∧ Cleared (history ++ events) := by
  have books := books_foldl (history ++ events)
  rw [List.foldl_append, ← drawn] at books
  rw [← books.isCleared_iff]
  exact ⟨fun ⟨last, cleared⟩ => ⟨last, cleared⟩, fun ⟨last, cleared⟩ => ⟨last, cleared⟩⟩

end Screen

/-! ## Renderers that do not fail -/

namespace Renderer

variable {ρ : Type} {renderer : Renderer ρ} {r : ρ}

/-- **From this state on the renderer does not fail**, whatever screens it has shown since. -/
def NeverFails (renderer : Renderer ρ) (r : ρ) : Prop :=
  ∀ (shown : List Screen) (s : Screen),
    (renderer.render (shown.foldl (fun r s => (renderer.render r s).2) r) s).1 = .ok ()

theorem NeverFails.shows (works : renderer.NeverFails r) (s : Screen) :
    renderer.render r s = (.ok (), (renderer.render r s).2) :=
  Prod.ext (works [] s) rfl

theorem NeverFails.next (works : renderer.NeverFails r) (s : Screen) :
    renderer.NeverFails (renderer.render r s).2 :=
  fun shown => works (s :: shown)

/-- A sink without a limit takes every text, and still has no limit then. -/
theorem neverFails_text (clear : Bool) (sink : Sink) (unlimited : sink.limit = none)
    (sound : sink.flushFails = false) : (text clear).NeverFails sink := by
  intro shown s
  induction shown generalizing sink with
  | nil => rw [List.foldl_nil, render_of_fits sound (Sink.fits_of_unlimited unlimited)]
  | cons s' shown ih =>
    rw [List.foldl_cons, render_of_fits sound (Sink.fits_of_unlimited unlimited)]
    exact ih (sink.add (s'.frame clear)) (Sink.unlimited_add unlimited) sound

end Renderer

namespace Game

variable {ρ : Type} {renderer : Renderer ρ} {r : ρ} {g g₁ g' : Game} {s : Screen} {e : Event}
  {events : List Event} {answers played : List Answer} {result : Except GameError Unit}
  {last : Except GameError Unit × Game} {out : Except GameError Cell × ρ × Game}

/-- The answers that are events. -/
def told (events : List Event) : List Answer := events.map fun e => .ok (some e)

/-- The answer after the last event. -/
def ended (result : Except GameError Unit) : Answer := result.map fun _ => none

/-- **What playing does with events that are left**, given what running through them returns: the
answers that it takes, and what it returns itself. -/
inductive StopsAmong (s : Screen) (events : List Event) :
    Except GameError Unit × Game → List Answer → Except GameError Cell × ρ × Game → Prop
  /-- It stops after the first change of the score that finds the screen cleared, and returns this
  score, -/
  | cleared {last : Except GameError Unit × Game} {before : List Event} {points : Cell} {r : ρ}
      {g : Game} (part : before ++ [.score points] <+: events)
      (clears : s.Clears (before ++ [.score points])) (first : s.NeverClears before) :
      StopsAmong s events last (told (before ++ [.score points])) (.ok points, r, g)
  /-- or takes all of them, and returns the last score, or the same error. -/
  | throughout {result : Except GameError Unit} {r : ρ} {g : Game} (never : s.NeverClears events) :
      StopsAmong s events (result, g) (told events ++ [ended result])
        (result.map fun _ => (latest Event.points? events).getD s.score, r, g)

theorem Next.screen_eq (call : g.Next (.ok (some e)) g₁) : g₁.screen = g.screen.after e := by
  cases next_advances call with
  | event => exact screen_after _ e

/-- An event that does not clear the screen goes before the others. -/
theorem StopsAmong.cons (unclear : ¬ s.Clears [e])
    (stops : StopsAmong (s.after e) events last played out) :
    StopsAmong s (e :: events) last (.ok (some e) :: played) out := by
  cases stops with
  | @cleared _ before points r g part clears first =>
    have some : before ++ [Event.score points] ≠ [] := by simp
    show StopsAmong s _ _ (told ((e :: before) ++ [.score points])) _
    exact .cleared (List.cons_prefix_cons.mpr ⟨rfl, part⟩)
      ((Screen.clears_cons some).mpr clears) (Screen.neverClears_cons unclear first)
  | @throughout result r g never =>
    have score : (latest Event.points? events).getD (s.after e).score =
        (latest Event.points? (e :: events)).getD s.score := by
      rw [latest_cons, Screen.score_after]
      cases latest Event.points? events <;> rfl
    rw [score]
    exact .throughout (Screen.neverClears_cons unclear never)

/-- **The comparison of the loops**, by induction on the calls of the one that runs through. -/
theorem FinishCalls.stopsAmong (works : renderer.NeverFails r)
    (finishes : g.FinishCalls answers last) :
    ∃ events played out, answers = told events ++ [ended last.1] ∧
      PlayCalls renderer r g played out ∧ StopsAmong g.screen events last played out := by
  induction finishes generalizing r with
  | @halted g g' call =>
    have screen : g'.screen = g.screen := by
      cases next_advances call with
      | halted => rfl
    refine ⟨[], _, _, rfl, .halted call, ?_⟩
    rw [screen]
    exact .throughout Screen.neverClears_nil
  | fails call =>
    refine ⟨[], _, _, rfl, .fails call, ?_⟩
    exact .throughout Screen.neverClears_nil
  | @event g g₁ e answers last call rest ih =>
    have screen := call.screen_eq
    cases e with
    | draw x y tile =>
      obtain ⟨events, played, out, rfl, plays, stops⟩ := ih works
      have unclear : ¬ g.screen.Clears [.draw x y tile] := by
        rintro ⟨⟨points, last⟩, -⟩
        cases last
      exact ⟨_, _, out, rfl, .draws call plays, (screen ▸ stops).cons unclear⟩
    | score points =>
      have clears : g.screen.Clears [.score points] ↔ g₁.isCleared = true := by
        rw [isCleared, screen]
        exact ⟨Screen.Clears.cleared, fun cleared => ⟨⟨points, rfl⟩, cleared⟩⟩
      -- The events that are left do not matter once the game is cleared, but there are some.
      obtain ⟨events, played, out, rfl, plays, stops⟩ := ih (works.next g₁.screen)
      by_cases cleared : g₁.isCleared = true
      · refine ⟨.score points :: events, _, _, rfl, .clears call (works.shows _) cleared, ?_⟩
        rw [score_of_next call]
        show StopsAmong _ _ _ (told ([] ++ [.score points])) _
        exact .cleared (List.prefix_append [_] _) (clears.mpr cleared) Screen.neverClears_nil
      · exact ⟨_, _, out, rfl,
          .scores call (works.shows _) (Bool.not_eq_true _ ▸ cleared) plays,
          (screen ▸ stops).cons (mt clears.mp cleared)⟩

/-! ## The statement -/

/-- **Playing stops at the first change of the score that finds the game cleared**, and is a run
through all events otherwise.  If running through the events of a game returns, then so does playing
it with a renderer that does not fail.  The events that it takes are the first of those that are run
through, and they leave the game that it leaves. -/
theorem play_stops_where_cleared (works : renderer.NeverFails r)
    (returns : g.FinishReturns (result, g')) :
    ∃ events played out,
      g.FinishCalls (told events ++ [ended result]) (result, g') ∧
      PlayCalls renderer r g played out ∧ g.Calls played out.2.2 ∧
      (∀ out', PlayReturns renderer r g out' ↔ out' = out) ∧
      played <+: told events ++ [ended result] ∧
      StopsAmong g.screen events (result, g') played out ∧
      ∀ history : List Event, g.screen = history.foldl Screen.after {} →
        ∀ first, g.screen.Clears first ↔
          (∃ points, first.getLast? = some (.score points)) ∧ Screen.Cleared (history ++ first) := by
  obtain ⟨answers, finishes⟩ := finishReturns_iff.mp returns
  obtain ⟨events, played, out, rfl, plays, stops⟩ := finishes.stopsAmong works
  have part : played <+: told events ++ [ended result] := by
    cases stops with
    | cleared part => exact (part.map _).trans (List.prefix_append _ _)
    | throughout => exact List.prefix_rfl
  exact ⟨events, played, out, finishes, plays, plays.calls,
    fun out' => (playReturns_iff.mpr ⟨played, plays⟩).iff, part, stops,
    fun history drawn first => Screen.clears_iff drawn⟩

/-- A game with one block, which is drawn and removed before the score changes to 7, and drawn again
before it changes to 9. -/
def redrawn : Game := load [104, 1, 104, 1, 104, 2, 104, 1, 104, 1, 104, 0, 104, -1, 104, 0, 104, 7,
  104, 1, 104, 1, 104, 2, 104, -1, 104, 0, 104, 9, 99]

/-- Playing stops at the first change of the score, in whatever sink without a limit. -/
theorem stops_before_block_is_redrawn :
    ∃ g' g₁ before, redrawn.FinishReturns (.ok (), g') ∧ g'.screen.score = 9 ∧
      PlayReturns (.text false) {} redrawn
        (.ok 7, { written := "  \n  \nScore: 7 Blocks remaining: 0\n" }, g₁) ∧
      g₁.machine.status = .running ∧ redrawn.Calls (told (before ++ [.score 7])) g₁ := by
  have finishes : (redrawn.finish 2 6).map
      (fun out => (out.1, out.2.screen.score, out.2.machine.status)) =
        some (.ok (), 9, .halted) := by rfl
  have plays : (redrawn.play (.text false) 2 4 {}).map
      (fun out => (out.1, out.2.1, out.2.2.machine.status)) = some (.ok 7,
        { written := "  \n  \nScore: 7 Blocks remaining: 0\n" }, .running) := by rfl
  obtain ⟨⟨_, g'⟩, returns, shown⟩ := Option.map_eq_some_iff.mp finishes
  obtain ⟨⟨_, _, g₁⟩, stops, shown'⟩ := Option.map_eq_some_iff.mp plays
  simp only [Prod.mk.injEq] at shown shown'
  obtain ⟨rfl, score, halted⟩ := shown
  obtain ⟨rfl, rfl, running⟩ := shown'
  obtain ⟨events, played, out, -, -, calls, unique, -, among, -⟩ :=
    play_stops_where_cleared (Renderer.neverFails_text false {} rfl rfl) ⟨2, 6, returns⟩
  have same := (unique _).mp ⟨2, 4, stops⟩
  cases among with
  | cleared =>
    cases same
    exact ⟨g', g₁, _, ⟨2, 6, returns⟩, score, ⟨2, 4, stops⟩, running, calls⟩
  | throughout =>
    obtain rfl : g₁ = g' := congrArg (fun out => out.2.2) same
    cases running.symm.trans halted

end Game
end IntcodeMachine
