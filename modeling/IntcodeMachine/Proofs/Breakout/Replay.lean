import IntcodeMachine.Proofs.Breakout.Events
import Mathlib.Data.List.Forall2

/-! # A game replays the outputs of its machine

Whatever program a game runs, and whenever it is paid for, its calls for events
answer the outputs of the machine, three at a time, and its screen is what these
triples say one after the other (`replays_outputs`).  A triple that names no tile
is answered with an error and has no effect; the next call goes on with the triple
after it.

Two answers end a game: that there is no event, and a fault.  They leave screen and
joystick as they are, and from then on every call gives the same answer and changes
nothing (`Stays`), even if the game is paid for again.
-/
namespace IntcodeMachine

/-! ## What triples say -/

theorem Tile.ofId?_eq_none {n : Cell} : Tile.ofId? n = none ↔ n.toInt < 0 ∨ 4 < n.toInt := by
  simp only [Option.eq_none_iff_forall_ne_some, ne_eq, Tile.ofId?_eq_some]
  constructor
  · intro h
    have h0 := h .empty
    have h1 := h .wall
    have h2 := h .block
    have h3 := h .paddle
    have h4 := h .ball
    simp only [Tile.id] at h0 h1 h2 h3 h4
    omega
  · intro h t ht
    cases t <;> simp only [Tile.id] at ht <;> omega

/-- The answer that a triple stands for. -/
inductive Triple.Says : Triple → Game.Answer → Prop
  /-- The position -1, 0 stands for the score. -/
  | score (points : Cell) : Says ⟨-1, 0, points⟩ (.ok (some (.score points)))
  | draw {x y id : Cell} {tile : Tile} (elsewhere : ¬ (x = -1 ∧ y = 0))
      (known : (tile.id : Int) = id.toInt) : Says ⟨x, y, id⟩ (.ok (some (.draw x y tile)))
  /-- Only the numbers from 0 to 4 stand for tiles. -/
  | unknown {x y id : Cell} (elsewhere : ¬ (x = -1 ∧ y = 0))
      (unknown : id.toInt < 0 ∨ 4 < id.toInt) : Says ⟨x, y, id⟩ (.error (.unknownTile id))

/-- What a triple does to the screen. -/
def Screen.hear (s : Screen) (t : Triple) : Screen :=
  if t.x = -1 ∧ t.y = 0 then s.setScore t.value
  else match Tile.ofId? t.value with
    | some tile => s.draw t.x t.y tile
    | none => s

/-- An event is what its triple says, and does the same to the screen. -/
theorem Triple.of_event_ok {t : Triple} {e : Event} (h : t.event = .ok e) (s : Screen) :
    t.Says (.ok (some e)) ∧ s.after e = s.hear t := by
  obtain ⟨x, y, id⟩ := t
  simp only [Triple.event] at h
  unfold Screen.hear
  split at h
  · rename_i place
    obtain ⟨rfl, rfl⟩ := place
    cases h
    exact ⟨.score id, rfl⟩
  · rename_i elsewhere
    rw [if_neg elsewhere]
    split at h
    · rename_i tile known
      cases h
      exact ⟨.draw elsewhere (Tile.ofId?_eq_some.mp known), by simp only [known]; rfl⟩
    · cases h

/-- A triple that is no event says so, and does nothing to the screen. -/
theorem Triple.of_event_error {t : Triple} {e : GameError} (h : t.event = .error e) (s : Screen) :
    t.Says (.error e) ∧ s = s.hear t := by
  obtain ⟨x, y, id⟩ := t
  simp only [Triple.event] at h
  unfold Screen.hear
  split at h
  · cases h
  · rename_i elsewhere
    rw [if_neg elsewhere]
    split at h
    · cases h
    · rename_i unknown
      cases h
      exact ⟨.unknown elsewhere (Tile.ofId?_eq_none.mp unknown), by simp only [unknown]⟩

namespace Game

/-! ## Calls, one after the other -/

/-- Calls for events give these answers and lead from one game to another.  The game may be paid
for before, between and after them. -/
inductive Reaches (g : Game) : List Answer → Game → Prop
  | start : Reaches g [] g
  | next {answers : List Answer} {answer : Answer} {g' g'' : Game}
      (before : Reaches g answers g') (call : g'.Next answer g'') :
      Reaches g (answers ++ [answer]) g''
  | quarters {answers : List Answer} {g' : Game} (before : Reaches g answers g') :
      Reaches g answers g'.insertQuarters

/-- The answers after which a game does not go on. -/
def Answer.Ends (a : Answer) : Prop := a = .ok none ∨ ∃ fault, a = .error (.fault fault)

/-- **Answers and screen are those of the outputs**, read as triples. -/
structure Replays (g : Game) (answers : List Answer) (triples : List Triple) : Prop where
  /-- There are three outputs for every call. -/
  size : g.machine.outputs.size = 3 * answers.length
  outputs : g.machine.outputs.toList = triples.flatMap Triple.cells
  said : List.Forall₂ Triple.Says triples answers
  screen : g.screen = triples.foldl Screen.hear {}

/-- **The game stays as it is** and gives this answer to every call, also when it is paid for. -/
def Stays (g : Game) (answer : Answer) : Prop :=
  ∀ answers g', g.Reaches answers g' → ∀ a g'', g'.Next a g'' ↔ a = answer ∧ g'' = g'

theorem replays_load (program : List Cell) : (load program).Replays [] [] :=
  ⟨rfl, rfl, .nil, rfl⟩

/-- A call that does not end the game answers one more triple. -/
theorem Replays.next {g g' : Game} {answers : List Answer} {answer : Answer}
    {triples : List Triple} (replays : g.Replays answers triples) (call : g.Next answer g')
    (goesOn : ¬ answer.Ends) : ∃ t, g'.Replays (answers ++ [answer]) (triples ++ [t]) := by
  have extend {t : Triple} {m : Machine}
      (outputs : m.outputs.toList = g.machine.outputs.toList ++ t.cells) (said : t.Says answer)
      (hm : g'.machine.outputs = m.outputs) (screen : g'.screen = g.screen.hear t) :
      g'.Replays (answers ++ [answer]) (triples ++ [t]) := by
    refine ⟨?_, ?_, List.rel_append replays.said (.cons said .nil), ?_⟩
    · have := congrArg List.length outputs
      rw [List.length_append, Array.length_toList, Array.length_toList, replays.size] at this
      rw [hm, this, List.length_append]
      rfl
    · rw [hm, outputs, replays.outputs, List.flatMap_append, List.flatMap_singleton]
    · rw [screen, replays.screen, List.foldl_append]
      rfl
  cases next_advances call with
  | event running outputs event =>
    obtain ⟨said, screen⟩ := Triple.of_event_ok event g.screen
    exact ⟨_, extend outputs said (machine_after _ _).1 ((screen_after _ _).trans screen)⟩
  | unknown running outputs event =>
    obtain ⟨said, screen⟩ := Triple.of_event_error event g.screen
    exact ⟨_, extend outputs said rfl screen⟩
  | halted => exact absurd (.inl rfl) goesOn
  | faulted => exact absurd (.inr ⟨_, rfl⟩) goesOn

/-- As long as no answer has ended the game, it replays the outputs. -/
theorem Reaches.replays {program : List Cell} {answers : List Answer} {g : Game}
    (reached : (load program).Reaches answers g) (goesOn : ∀ a ∈ answers, ¬ a.Ends) :
    ∃ triples, g.Replays answers triples := by
  induction reached with
  | start => exact ⟨[], replays_load program⟩
  | @next answers answer _ _ _ call ih =>
    obtain ⟨triples, replays⟩ := ih fun a ha => goesOn a (List.mem_append_left _ ha)
    have last : ¬ answer.Ends := goesOn answer (by simp)
    obtain ⟨t, replays⟩ := replays.next call last
    exact ⟨_, replays⟩
  | quarters _ ih =>
    -- Paying changes a cell of memory, which neither outputs nor screen depend on.
    obtain ⟨triples, replays⟩ := ih goesOn
    exact ⟨triples, replays.size, replays.outputs, replays.said, replays.screen⟩

/-! ## Games that do not go on -/

/-- A game stays as it is if calls give one answer and change nothing wherever the machine has the
status that it has now. -/
theorem stays_of_status {g : Game} {answer : Answer}
    (stuck : ∀ g' : Game, g'.machine.status = g.machine.status → g'.Next answer g') :
    g.Stays answer := by
  intro answers g' reached
  have status : g'.machine.status = g.machine.status := by
    induction reached with
    | start => rfl
    | next _ call ih => rw [(call.unique (stuck _ ih)).2, ih]
    | quarters _ ih => exact ih
  intro a g''
  constructor
  · intro call
    exact call.unique (stuck g' status)
  · rintro ⟨rfl, rfl⟩
    exact stuck _ status

theorem stays_of_halted {g : Game} (halted : g.machine.status = .halted) : g.Stays (.ok none) :=
  stays_of_status fun _ h => next_halted (h.trans halted)

theorem stays_of_faulted {g : Game} (faulted : g.machine.status = .faulted) :
    g.Stays (.error (.fault (.notRunning .faulted))) :=
  stays_of_status fun _ h => next_faulted (h.trans faulted)

/-- There is no event exactly if the machine has halted before it had three more outputs. -/
theorem next_none_iff {g g' : Game} {a : Answer} (call : g.Next a g') :
    a = .ok none ↔
      g'.machine.status = .halted ∧ g'.machine.outputs.size < g.machine.outputs.size + 3 := by
  cases next_advances call with
  | @event t e m running outputs said =>
    have status := (machine_after { g with machine := m } e).2.trans running
    rw [status]
    simp
  | unknown running outputs said => simp [running]
  | @halted m few halted outputs short =>
    have size := congrArg List.length outputs
    rw [List.length_append, Array.length_toList, Array.length_toList] at size
    have fewer : m.outputs.size < g.machine.outputs.size + 3 := by omega
    exact ⟨fun _ => ⟨halted, fewer⟩, fun _ => rfl⟩
  | faulted faulted => simp [faulted]

/-- **The calls of a game answer the outputs of its machine, three at a time.**  As long as no
answer has ended the game, there is a triple for every call, and answers and screen are what the
triples say.  The next call answers that there is no event if and only if the machine halts with
fewer than three more outputs; this and a fault leave screen and joystick as they are, and the game
then stays as it is for ever. -/
theorem replays_outputs {program : List Cell} {answers : List Answer} {g : Game}
    (reached : (load program).Reaches answers g) :
    ((∀ a ∈ answers, ¬ a.Ends) → ∃ triples, g.Replays answers triples) ∧
      ∀ a g', g.Next a g' →
        (a = .ok none ↔
          g'.machine.status = .halted ∧ g'.machine.outputs.size < g.machine.outputs.size + 3) ∧
        (a = .ok none →
          g'.screen = g.screen ∧ g'.joystick = g.joystick ∧ g'.Stays (.ok none)) ∧
        ∀ fault, a = .error (.fault fault) →
          g'.screen = g.screen ∧ g'.joystick = g.joystick ∧
            g'.Stays (.error (.fault (.notRunning .faulted))) := by
  refine ⟨reached.replays, fun a g' call => ⟨next_none_iff call, ?_, ?_⟩⟩
  · rintro rfl
    cases next_advances call with
    | halted halted => exact ⟨rfl, rfl, stays_of_halted halted⟩
  · rintro fault rfl
    cases next_advances call with
    | unknown _ _ said =>
      -- What a triple says is never a fault.
      cases (Triple.of_event_error said g.screen).1
    | faulted faulted => exact ⟨rfl, rfl, stays_of_faulted faulted⟩

/-- A block is drawn, the next triple names no tile, and the machine halts after one more output. -/
theorem replays_block_and_unknown_tile :
    ∃ g g', (load [104, 1, 104, 2, 104, 2, 104, 0, 104, 0, 104, 9, 104, 5, 99]).Reaches
        [.ok (some (.draw 1 2 .block)), .error (.unknownTile 9)] g ∧
      (∃ triples, g.Replays [.ok (some (.draw 1 2 .block)), .error (.unknownTile 9)] triples) ∧
      g.Next (.ok none) g' ∧ g'.screen = g.screen ∧ g'.Stays (.ok none) := by
  obtain ⟨g₁, first, g, second, g', third⟩ :
      ∃ g₁, (load [104, 1, 104, 2, 104, 2, 104, 0, 104, 0, 104, 9, 104, 5, 99]).next 8 =
          some (.ok (some (.draw 1 2 .block)), g₁) ∧
        ∃ g, g₁.next 8 = some (.error (.unknownTile 9), g) ∧
          ∃ g', g.next 8 = some (.ok none, g') := by
    refine ⟨_, rfl, ?_⟩
    refine ⟨_, rfl, ?_⟩
    exact ⟨_, rfl⟩
  have reached := Reaches.start.next ⟨8, first⟩ |>.next ⟨8, second⟩
  obtain ⟨replays, ends⟩ := replays_outputs reached
  obtain ⟨screen, -, stays⟩ := (ends _ g' ⟨8, third⟩).2.1 rfl
  exact ⟨g, g', reached, replays (by simp [Answer.Ends]), ⟨8, third⟩, screen, stays⟩

end Game
end IntcodeMachine
