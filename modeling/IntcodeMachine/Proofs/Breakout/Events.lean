import IntcodeMachine.Breakout.Game
import IntcodeMachine.Proofs.Machine.Running

/-! # One event

A game goes on to its next event by running its machine to three outputs.  The
ways in which that ends are those of `Advances`: there is a triple, which is an
event or names no tile; or the machine has halted before there were three more
outputs; or it has faulted.  `next_advances` is all that later modules know of a
call, whatever the program does between the outputs, and whatever it reads from
the joystick.
-/
namespace IntcodeMachine

/-- The three outputs that make a triple. -/
def Triple.cells (t : Triple) : List Cell := [t.x, t.y, t.value]

/-! ## Triples -/

namespace Machine

/-- A run to an output that must be followed by another computation to be complete. -/
def thenOutput (rest : Cell → Machine → Option (Result (Option Triple))) :
    Result Outcome → Option (Result (Option Triple))
  | (.ok (.output value), m) => rest value m
  | (.ok .halted, m) => some (.ok none, m)
  | (.error fault, m) => some (.error fault, m)

theorem runToTriple_eq (m : Machine) (fuel : Nat) :
    m.runToTriple fuel =
      (m.runToOutput fuel).bind (thenOutput fun x m =>
        (m.runToOutput fuel).bind (thenOutput fun y m =>
          (m.runToOutput fuel).bind (thenOutput fun value m =>
            some (.ok (some ⟨x, y, value⟩), m)))) := by
  unfold runToTriple
  rcases m.runToOutput fuel with _ | ⟨_ | _ | _, m⟩ <;> try rfl
  rename_i x
  dsimp only [Option.bind_some, thenOutput]
  rcases m.runToOutput fuel with _ | ⟨_ | _ | _, m⟩ <;> try rfl
  rename_i y
  dsimp only [Option.bind_some, thenOutput]
  rcases m.runToOutput fuel with _ | ⟨_ | _ | _, m⟩ <;> rfl

theorem steady_thenOutput {rest : Cell → Machine → Nat → Option (Result (Option Triple))}
    (steady : ∀ value m, Steady (rest value m)) (r : Result Outcome) :
    Steady fun fuel => thenOutput (fun value m => rest value m fuel) r := by
  rcases r with ⟨_ | _ | _, m⟩
  · exact fun _ _ h => h
  · exact steady _ m
  · exact fun _ _ h => h

theorem steady_runToTriple (m : Machine) : Steady fun fuel => m.runToTriple fuel := by
  simp only [runToTriple_eq]
  refine m.steady_runToOutput.bind (steady_thenOutput fun x m => ?_)
  refine m.steady_runToOutput.bind (steady_thenOutput fun y m => ?_)
  exact m.steady_runToOutput.bind (steady_thenOutput fun _ _ _ _ h => h)

/-- **The ways in which a run to a triple leaves a machine**, given the outputs before. -/
inductive Speaks (before : List Cell) : Result (Option Triple) → Prop
  /-- There are exactly three more outputs. -/
  | triple {t : Triple} {m : Machine} (running : m.status = .running)
      (outputs : m.outputs.toList = before ++ t.cells) : Speaks before (.ok (some t), m)
  /-- The machine has halted and there are fewer. -/
  | halted {m : Machine} {few : List Cell} (halted : m.status = .halted)
      (outputs : m.outputs.toList = before ++ few) (short : few.length < 3) :
      Speaks before (.ok none, m)
  | faulted {fault : Fault} {m : Machine} (faulted : m.status = .faulted) :
      Speaks before (.error fault, m)

/-- One more output, if there is one, leaves it to the rest what follows. -/
theorem speaks_thenOutput {before few : List Cell} {m : Machine} {fuel : Nat}
    {rest : Cell → Machine → Option (Result (Option Triple))} {r : Result (Option Triple)}
    (outputs : m.outputs.toList = before ++ few) (short : few.length < 3)
    (goesOn : ∀ value m', m'.status = .running →
      m'.outputs.toList = before ++ (few ++ [value]) → rest value m' = some r → Speaks before r)
    (h : (m.runToOutput fuel).bind (thenOutput rest) = some r) : Speaks before r := by
  obtain ⟨r', hr', h⟩ := Option.bind_eq_some_iff.mp h
  cases runToOutput_surfaces hr' with
  | output running outputs' =>
    refine goesOn _ _ running ?_ h
    rw [outputs', Array.toList_push, outputs, List.append_assoc]
  | halted halted outputs' =>
    cases h
    exact .halted halted (outputs' ▸ outputs) short
  | faulted faulted =>
    cases h
    exact .faulted faulted

theorem runToTriple_speaks {m : Machine} {fuel : Nat} {r : Result (Option Triple)}
    (h : m.runToTriple fuel = some r) : Speaks m.outputs.toList r := by
  rw [runToTriple_eq] at h
  have none : m.outputs.toList = m.outputs.toList ++ [] := (List.append_nil _).symm
  refine speaks_thenOutput none (by decide) ?_ h
  intro x m _ outputs h
  refine speaks_thenOutput outputs (by simp) ?_ h
  intro y m _ outputs h
  refine speaks_thenOutput outputs (by simp) ?_ h
  intro value m running outputs h
  cases h
  exact .triple running outputs

theorem runToTriple_halted {m : Machine} (halted : m.status = .halted) (fuel : Nat) :
    m.runToTriple fuel = some (.ok none, m) := by
  rw [runToTriple_eq, runToOutput_halted halted]
  rfl

theorem runToTriple_faulted {m : Machine} (faulted : m.status = .faulted) (fuel : Nat) :
    m.runToTriple (fuel + 1) = some (.error (.notRunning .faulted), m) := by
  rw [runToTriple_eq, runToOutput_faulted faulted]
  rfl

end Machine

/-! ## Events -/

namespace Game

/-- What a call for the next event answers. -/
abbrev Answer := Except GameError (Option Event)

/-- A call for the next event returns this answer and leaves this game. -/
def Next (g : Game) (answer : Answer) (g' : Game) : Prop :=
  Returns (fun fuel => g.next fuel) (answer, g')

section After
variable (g : Game) (e : Event)

theorem machine_aim : g.aim.machine.outputs = g.machine.outputs ∧
    g.aim.machine.status = g.machine.status := by
  unfold aim
  split <;> exact ⟨rfl, rfl⟩

theorem screen_aim : g.aim.screen = g.screen := by
  unfold aim
  split <;> rfl

/-- An event is not an action of the machine: outputs and status stay. -/
theorem machine_after : (g.after e).machine.outputs = g.machine.outputs ∧
    (g.after e).machine.status = g.machine.status := by
  cases e with
  | score points => exact ⟨rfl, rfl⟩
  | draw x y tile => cases tile <;> exact machine_aim _

@[simp] theorem screen_after : (g.after e).screen = g.screen.after e := by
  cases e with
  | score points => rfl
  | draw x y tile => cases tile <;> exact screen_aim _

end After

/-- What a game does with what its machine has said. -/
def hear (g : Game) : Result (Option Triple) → Answer × Game
  | (.error fault, machine) => (.error (.fault fault), { g with machine })
  | (.ok none, machine) => (.ok none, { g with machine })
  | (.ok (some triple), machine) =>
    match triple.event with
    | .ok event => (.ok (some event), { g with machine }.after event)
    | .error e => (.error e, { g with machine })

theorem next_eq (g : Game) (fuel : Nat) :
    g.next fuel = (g.machine.runToTriple fuel).map g.hear := by
  obtain ⟨machine, screen, ball, paddle, joystick⟩ := g
  dsimp only [next]
  rcases machine.runToTriple fuel with _ | ⟨_ | _ | triple, m⟩
  · rfl
  · rfl
  · rfl
  · simp only [Option.map_some, hear]
    cases triple.event <;> rfl

theorem steady_next (g : Game) : Steady fun fuel => g.next fuel := by
  simp only [next_eq]
  exact g.machine.steady_runToTriple.map g.hear

/-- **A call answers once.** -/
theorem Next.unique {g g' g'' : Game} {a b : Answer} (h : g.Next a g') (h' : g.Next b g'') :
    a = b ∧ g' = g'' :=
  Prod.mk.inj (g.steady_next.unique h h')

/-- **The ways in which a call for the next event ends.** -/
inductive Advances (g : Game) : Answer → Game → Prop
  /-- Three more outputs are an event. -/
  | event {t : Triple} {e : Event} {m : Machine} (running : m.status = .running)
      (outputs : m.outputs.toList = g.machine.outputs.toList ++ t.cells) (said : t.event = .ok e) :
      Advances g (.ok (some e)) ({ g with machine := m }.after e)
  /-- Three more outputs name no tile. -/
  | unknown {t : Triple} {e : GameError} {m : Machine} (running : m.status = .running)
      (outputs : m.outputs.toList = g.machine.outputs.toList ++ t.cells)
      (said : t.event = .error e) : Advances g (.error e) { g with machine := m }
  /-- The machine has halted with fewer. -/
  | halted {m : Machine} {few : List Cell} (halted : m.status = .halted)
      (outputs : m.outputs.toList = g.machine.outputs.toList ++ few) (short : few.length < 3) :
      Advances g (.ok none) { g with machine := m }
  | faulted {fault : Fault} {m : Machine} (faulted : m.status = .faulted) :
      Advances g (.error (.fault fault)) { g with machine := m }

theorem next_advances {g g' : Game} {answer : Answer} (h : g.Next answer g') :
    g.Advances answer g' := by
  obtain ⟨fuel, h⟩ := h
  change g.next fuel = some (answer, g') at h
  rw [next_eq] at h
  obtain ⟨r, hr, h⟩ := Option.map_eq_some_iff.mp h
  cases Machine.runToTriple_speaks hr with
  | halted halted outputs short =>
    cases h
    exact .halted halted outputs short
  | faulted faulted =>
    cases h
    exact .faulted faulted
  | @triple t m running outputs =>
    unfold hear at h
    dsimp only at h
    split at h
    · rename_i e said
      cases h
      exact .event running outputs said
    · rename_i e said
      cases h
      exact .unknown running outputs said

/-- A halted machine has no more events. -/
theorem next_halted {g : Game} (halted : g.machine.status = .halted) : g.Next (.ok none) g := by
  refine ⟨0, ?_⟩
  change g.next 0 = some (.ok none, g)
  rw [next_eq, Machine.runToTriple_halted halted]
  rfl

/-- A game that has faulted cannot go on. -/
theorem next_faulted {g : Game} (faulted : g.machine.status = .faulted) :
    g.Next (.error (.fault (.notRunning .faulted))) g := by
  refine ⟨1, ?_⟩
  change g.next 1 = some (.error (.fault (.notRunning .faulted)), g)
  rw [next_eq, Machine.runToTriple_faulted faulted]
  rfl

end Game
end IntcodeMachine
