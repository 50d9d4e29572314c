import IntcodeMachine.Proofs.Breakout.Playing
import IntcodeMachine.Proofs.Breakout.Sinks

/-! # Showing a game does not change it

A game that is shown as text in a sink is the game that is played when nothing is
shown: the same events, the same end, and the sink holds the frames of the screens
as they were after each change of the score (`Shows`).  Only a sink with too little
room makes a difference, and then the least possible one (`CutShort`): it holds the
first bytes of the same text, as many as it takes, the event whose frame found no room
has been applied, no later one has been asked for, and the game can go on from there.

The statement about sinks is an induction on the game as it is played when nothing is
shown, with the sink generalised, since every frame leaves less room for the ones
after it.
-/
namespace IntcodeMachine
namespace Game

/-! ## What is shown -/

/-- **Calls for events give these events and lead to this game**, and the text consists of the
frames of the screens right after each change of the score. -/
inductive Shows (clear : Bool) : Game → List Event → String → Game → Prop
  | none (g : Game) : Shows clear g [] "" g
  | draws {g g₁ g' : Game} {x y : Cell} {tile : Tile} {events : List Event} {text : String}
      (call : g.Next (.ok (some (.draw x y tile))) g₁) (rest : Shows clear g₁ events text g') :
      Shows clear g (.draw x y tile :: events) text g'
  | scores {g g₁ g' : Game} {points : Cell} {events : List Event} {text : String}
      (call : g.Next (.ok (some (.score points))) g₁) (rest : Shows clear g₁ events text g') :
      Shows clear g (.score points :: events) (g₁.screen.frame clear ++ text) g'

/-- **The game is cut short by a sink** that takes `n` bytes, and so has no room for the whole frame
after one of its events: the game is left as it is right after this event. -/
structure CutShort (clear : Bool) (n : Nat) (g : Game) (events : List Event) (ending : Ending)
    (g' : Game) (before : List Event) (points : Cell) (later : List Event) (shown : String)
    (g₀ g₁ : Game) : Prop where
  events_eq : events = before ++ .score points :: later
  shows : g.Shows clear before shown g₀
  /-- All frames before had room, -/
  fits : shown.utf8ByteSize ≤ n
  call : g₀.Next (.ok (some (.score points))) g₁
  /-- and this one has none. -/
  full : n < (shown ++ g₁.screen.frame clear).utf8ByteSize
  /-- The later events are still to come, unless the game has been cleared with this one. -/
  goesOn : g₁.Plays later ending g' ∨ g₁.isCleared = true ∧ later = [] ∧ g₁ = g'

namespace CutShort
variable {clear : Bool} {n : Nat} {g g₁ g' : Game} {events : List Event} {ending : Ending}
  {points : Cell}

/-- A game may be cut short at its first frame. -/
theorem first (call : g.Next (.ok (some (.score points))) g₁)
    (full : n < (g₁.screen.frame clear).utf8ByteSize)
    (goesOn : g₁.Plays events ending g' ∨ g₁.isCleared = true ∧ events = [] ∧ g₁ = g') :
    CutShort clear n g (.score points :: events) ending g' [] points events "" g g₁ where
  events_eq := rfl
  shows := .none g
  fits := Nat.zero_le n
  call := call
  full := by rwa [String.empty_append]
  goesOn := goesOn

variable {before later : List Event} {points' : Cell} {shown : String} {g₂ g₃ : Game}

/-- If it is cut short later, then an event that draws a tile takes no room before, -/
theorem draw {x y : Cell} {tile : Tile} (call : g.Next (.ok (some (.draw x y tile))) g₁)
    (cut : CutShort clear n g₁ events ending g' before points' later shown g₂ g₃) :
    CutShort clear n g (.draw x y tile :: events) ending g' (.draw x y tile :: before) points' later
      shown g₂ g₃ :=
  { cut with events_eq := congrArg _ cut.events_eq, shows := .draws call cut.shows }

/-- and a change of the score takes the room for its frame. -/
theorem score (call : g.Next (.ok (some (.score points))) g₁)
    (room : (g₁.screen.frame clear).utf8ByteSize ≤ n)
    (cut : CutShort clear (n - (g₁.screen.frame clear).utf8ByteSize) g₁ events ending g' before
      points' later shown g₂ g₃) :
    CutShort clear n g (.score points :: events) ending g' (.score points :: before) points' later
      (g₁.screen.frame clear ++ shown) g₂ g₃ := by
  have fits := cut.fits
  have full := cut.full
  rw [String.utf8ByteSize_append] at full
  exact { cut with
    events_eq := congrArg _ cut.events_eq
    shows := .scores call cut.shows
    fits := by
      rw [String.utf8ByteSize_append]
      omega
    full := by
      rw [String.utf8ByteSize_append, String.utf8ByteSize_append]
      omega }

end CutShort

/-- **The game is the same in every sink**, as far as there is room for its text. -/
structure Observed (clear : Bool) (g : Game) (events : List Event) (ending : Ending) (g' : Game)
    (text : String) : Prop where
  shows : ∃ last, g.Shows clear events text last
  whole : ∀ sink : Sink, sink.flushFails = false → sink.Fits text →
    PlayReturns (.text clear) sink g (ending.result g'.screen.score, sink.add text, g')
  cut : ∀ (sink : Sink) (n : Nat), sink.limit = some n → sink.flushFails = false →
    n < text.utf8ByteSize → ∃ before points later shown g₀ g₁,
      CutShort clear n g events ending g' before points later shown g₀ g₁ ∧
        PlayReturns (.text clear) sink g
          (.error (.render .sinkFull), sink.fill (Text.beginning n text), g₁)

namespace Observed
variable {clear : Bool} {g g₁ g' : Game} {events : List Event} {ending : Ending} {text : String}
  {points : Cell}

/-- A game without events shows nothing. -/
theorem of_call
    (returns : ∀ sink : Sink,
      PlayReturns (.text clear) sink g (ending.result g'.screen.score, sink, g')) :
    Observed clear g [] ending g' "" where
  shows := ⟨g, .none g⟩
  whole sink _ _ := by
    rw [sink.add_empty]
    exact returns sink
  cut _ n _ _ full := absurd full (Nat.not_lt_zero n)

theorem draw {x y : Cell} {tile : Tile} (call : g.Next (.ok (some (.draw x y tile))) g₁)
    (rest : Observed clear g₁ events ending g' text) :
    Observed clear g (.draw x y tile :: events) ending g' text where
  shows := by
    obtain ⟨last, shows⟩ := rest.shows
    exact ⟨last, .draws call shows⟩
  whole sink sound room := playReturns_of_draw call (rest.whole sink sound room)
  cut sink n limit sound full := by
    obtain ⟨_, _, _, _, _, _, cut, returns⟩ := rest.cut sink n limit sound full
    exact ⟨_, _, _, _, _, _, cut.draw call, playReturns_of_draw call returns⟩

/-- A game whose first frame has no room is cut short there, whatever frames there are later. -/
theorem cut_here {sink : Sink} {n : Nat} (call : g.Next (.ok (some (.score points))) g₁)
    (limit : sink.limit = some n) (full : n < (g₁.screen.frame clear).utf8ByteSize)
    (goesOn : g₁.Plays events ending g' ∨ g₁.isCleared = true ∧ events = [] ∧ g₁ = g') :
    CutShort clear n g (.score points :: events) ending g' [] points events "" g g₁ ∧
      PlayReturns (.text clear) sink g (.error (.render .sinkFull),
        sink.fill (Text.beginning n (g₁.screen.frame clear ++ text)), g₁) := by
  rw [Text.beginning_append_of_le (g₁.screen.ascii_frame clear) (Nat.le_of_lt full)]
  exact ⟨.first call full goesOn, playReturns_of_failure call (Renderer.render_of_full limit full)⟩

theorem clears (call : g.Next (.ok (some (.score points))) g') (cleared : g'.isCleared = true) :
    Observed clear g [.score points] .cleared g' (g'.screen.frame clear ++ "") where
  shows := ⟨g', .scores call (.none g')⟩
  whole sink sound room := by
    rw [String.append_empty] at room ⊢
    exact playReturns_of_cleared call (Renderer.render_of_fits sound room) cleared
  cut sink n limit sound full := by
    rw [String.append_empty] at full
    exact ⟨_, _, _, _, _, _, cut_here call limit full (.inr ⟨cleared, rfl, rfl⟩)⟩

theorem score (call : g.Next (.ok (some (.score points))) g₁)
    (uncleared : g₁.isCleared = false) (plays : g₁.Plays events ending g')
    (rest : Observed clear g₁ events ending g' text) :
    Observed clear g (.score points :: events) ending g' (g₁.screen.frame clear ++ text) where
  shows := by
    obtain ⟨last, shows⟩ := rest.shows
    exact ⟨last, .scores call shows⟩
  whole sink sound room := by
    obtain ⟨first, others⟩ := Sink.fits_append.mp room
    have shown := Renderer.render_of_fits sound first
    have := rest.whole (sink.add (g₁.screen.frame clear)) sound others
    rw [Sink.add_add] at this
    exact playReturns_of_score call shown uncleared this
  cut sink n limit sound full := by
    by_cases first : n < (g₁.screen.frame clear).utf8ByteSize
    · exact ⟨_, _, _, _, _, _, cut_here call limit first (.inl plays)⟩
    · -- This frame has room, so it is a later one that has not.
      have first := Nat.not_lt.mp first
      have shown := Renderer.render_of_fits sound ((Sink.fits_iff_of_limit limit).mpr first)
      obtain ⟨_, _, _, _, _, _, cut, returns⟩ :=
        rest.cut (sink.add (g₁.screen.frame clear)) _ (Sink.limit_add limit) sound
          (by rw [String.utf8ByteSize_append] at full; omega)
      rw [Sink.fill_add, ← Text.beginning_append_of_ge (g₁.screen.ascii_frame clear) first]
        at returns
      exact ⟨_, _, _, _, _, _, cut.score call first,
        playReturns_of_score call shown uncleared returns⟩

end Observed

/-- **A game that is played is observed**, by induction on its events. -/
theorem Plays.observed {g g' : Game} {events : List Event} {ending : Ending}
    (plays : g.Plays events ending g') (clear : Bool) :
    ∃ text, Observed clear g events ending g' text := by
  induction plays with
  | halted call => exact ⟨"", .of_call fun sink => playReturns_of_none call⟩
  | fails call => exact ⟨"", .of_call fun sink => playReturns_of_error call⟩
  | clears call cleared => exact ⟨_, .clears call cleared⟩
  | scores call uncleared rest ih =>
    obtain ⟨text, observed⟩ := ih
    exact ⟨_, .score call uncleared rest observed⟩
  | draws call _ ih =>
    obtain ⟨text, observed⟩ := ih
    exact ⟨_, .draw call observed⟩

/-! ## The statement -/

/-- An event is the next three outputs, and the machine runs on. -/
theorem outputs_of_event {g g' : Game} {e : Event} (call : g.Next (.ok (some e)) g') :
    g'.machine.outputs.size = g.machine.outputs.size + 3 ∧ g'.machine.status = .running := by
  cases next_advances call with
  | @event t _ m running outputs _ =>
    have after := machine_after { g with machine := m } e
    have size := congrArg List.length outputs
    rw [List.length_append, Array.length_toList, Array.length_toList] at size
    rw [after.1, after.2]
    exact ⟨size, running⟩

theorem Shows.outputs {clear : Bool} {g g' : Game} {events : List Event} {text : String}
    (shows : g.Shows clear events text g') :
    g'.machine.outputs.size = g.machine.outputs.size + 3 * events.length := by
  induction shows with
  | none => rfl
  | draws call _ ih | scores call _ ih =>
    rw [ih, (outputs_of_event call).1, List.length_cons]
    omega

theorem Shows.ascii {clear : Bool} {g g' : Game} {events : List Event} {text : String}
    (shows : g.Shows clear events text g') : Text.Ascii text := by
  induction shows with
  | none => decide
  | draws _ _ ih => exact ih
  | scores _ _ ih => exact (Screen.ascii_frame clear _).append ih

/-- **Showing a game as text does not change it.**  If a game that is not shown is played to an
end, it is played to the same end in a sink without a limit, which then holds the frames of the
screens after each change of the score.  With a limit of `n` bytes this is so as long as the text is
not longer.  Otherwise the sink is filled with the first `n` bytes of the same text, and the game
ends with the error that the sink is full right after the first event whose frame makes the text too
long; the machine still runs, exactly the outputs of the events up to this one have been taken from
it, and nothing more is ever shown in the sink. -/
theorem rendering_observes (clear : Bool) {g g' : Game} {result : Except GameError Cell}
    (returns : PlayReturns .silent () g (result, (), g')) :
    ∃ events ending text last,
      g.Plays events ending g' ∧ result = ending.result g'.screen.score ∧
      g.Shows clear events text last ∧
      (∀ out, PlayReturns (.text clear) {} g out ↔ out = (result, { written := text }, g')) ∧
      ∀ n,
        (text.utf8ByteSize ≤ n → ∀ out, PlayReturns (.text clear) { limit := some n } g out ↔
          out = (result, { limit := some (n - text.utf8ByteSize), written := text }, g')) ∧
        (n < text.utf8ByteSize → ∃ before points later shown g₀ g₁ held,
          CutShort clear n g events ending g' before points later shown g₀ g₁ ∧
          held.toList = text.toList.take n ∧ held.utf8ByteSize = n ∧
          (∀ out, PlayReturns (.text clear) { limit := some n } g out ↔
            out = (.error (.render .sinkFull), { limit := some 0, written := held }, g₁)) ∧
          (∀ s, (Renderer.text clear).render { limit := some 0, written := held } s =
            (.error .sinkFull, { limit := some 0, written := held })) ∧
          g₁.machine.status = .running ∧
          g₁.machine.outputs.size = g.machine.outputs.size + 3 * (before.length + 1)) := by
  obtain ⟨stepFuel, fuel, returns⟩ := returns
  obtain ⟨events, ending, plays, rfl⟩ := plays_of_play returns
  obtain ⟨text, observed⟩ := plays.observed clear
  obtain ⟨last, shows⟩ := observed.shows
  refine ⟨events, ending, text, last, plays, rfl, shows, fun out => ?_, fun n => ⟨?_, ?_⟩⟩
  · have whole := observed.whole {} rfl (Sink.fits_of_unlimited rfl)
    rw [Sink.add, String.empty_append] at whole
    exact whole.iff
  · intro small out
    have whole := observed.whole { limit := some n } rfl ((Sink.fits_iff_of_limit rfl).mpr small)
    rw [Sink.add, String.empty_append] at whole
    exact whole.iff
  · intro large
    obtain ⟨before, points, later, shown, g₀, g₁, cut, stops⟩ :=
      observed.cut { limit := some n } n rfl rfl large
    rw [Sink.fill, String.empty_append] at stops
    obtain ⟨size, running⟩ := outputs_of_event cut.call
    refine ⟨before, points, later, shown, g₀, g₁, Text.beginning n text, cut,
      String.toList_ofList, shows.ascii.utf8ByteSize_beginning (Nat.le_of_lt large),
      fun out => stops.iff, fun s => Renderer.render_full rfl, running, ?_⟩
    rw [size, cut.shows.outputs]
    omega

/-- The score changes twice, and the sink has room for one frame and a part of the other. -/
theorem rendering_two_scores :
    ∃ g' g₁, PlayReturns .silent ()
        (load [104, -1, 104, 0, 104, 7, 104, -1, 104, 0, 104, 8, 99]) (.ok 8, (), g') ∧
      PlayReturns (.text false) { limit := some 40 }
        (load [104, -1, 104, 0, 104, 7, 104, -1, 104, 0, 104, 8, 99])
        (.error (.render .sinkFull),
          { limit := some 0, written := "Score: 7 Blocks remaining: 0\nScore: 8 Bl" }, g₁) ∧
      g₁.machine.status = .running := by
  obtain ⟨g', returns⟩ : ∃ g', PlayReturns .silent ()
      (load [104, -1, 104, 0, 104, 7, 104, -1, 104, 0, 104, 8, 99]) (.ok 8, (), g') :=
    ⟨_, 4, 4, rfl⟩
  obtain ⟨g₁, stops⟩ : ∃ g₁, PlayReturns (.text false) { limit := some 40 }
      (load [104, -1, 104, 0, 104, 7, 104, -1, 104, 0, 104, 8, 99])
      (.error (.render .sinkFull),
        { limit := some 0, written := "Score: 7 Blocks remaining: 0\nScore: 8 Bl" }, g₁) :=
    ⟨_, 4, 4, by rfl⟩
  obtain ⟨events, ending, text, last, -, -, -, -, limited⟩ := rendering_observes false returns
  have long : 40 < text.utf8ByteSize := by
    refine Nat.not_le.mp fun small => ?_
    cases ((limited 40).1 small _).mp stops
  obtain ⟨before, points, later, shown, g₀, g₂, held, -, -, -, stops', -, running, -⟩ :=
    (limited 40).2 long
  cases (stops' _).mp stops
  exact ⟨g', _, returns, stops, running⟩

end Game
end IntcodeMachine
