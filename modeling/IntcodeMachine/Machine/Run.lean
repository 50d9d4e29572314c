import IntcodeMachine.Machine.Step

/-!
# Running a machine

Two ways of taking many steps: to the end, and to the next output. A program
need not end, so both take the number of steps that may be tried and have no
result when that is not enough; whether a run returns is whether some number is.
-/
namespace IntcodeMachine

/-- How a run to the next output ends. -/
inductive Outcome
  | output (value : Cell)
  | halted
deriving DecidableEq, Repr

namespace Outcome

/-- The output, if there is one. -/
def output? : Outcome → Option Cell
  | output value => some value
  | halted => none

/-- The outcome on one line. -/
def summary : Outcome → String
  | output value => "Output(" ++ value.text ++ ")"
  | halted => "Halted"

end Outcome

namespace Machine

/-- Steps until the machine no longer runs. -/
def runSteps (fuel : Nat) (m : Machine) : Option (Result Unit) :=
  match m.status with
  | .running =>
    match fuel with
    | 0 => none
    | fuel + 1 =>
      match m.step with
      | (.ok _, m) => runSteps fuel m
      | (.error fault, m) => some (.error fault, m)
  | _ => some (.ok (), m)

/-- Runs to the end and answers the number of instructions executed. A halted machine executes
none, a faulted one cannot run. -/
def run (fuel : Nat) (m : Machine) : Option (Result UInt64) :=
  match m.status with
  | .faulted => some (.error (.notRunning .faulted), m)
  | _ =>
    let start := m.steps
    (m.runSteps fuel).map fun
      | (.ok (), m) => (.ok (m.steps - start), m)
      | (.error fault, m) => (.error fault, m)

/-- Steps until there are more outputs than have been seen, or the machine has halted. -/
def stepsToOutput (seen fuel : Nat) (m : Machine) : Option (Result Outcome) :=
  match m.status with
  | .halted => some (.ok .halted, m)
  | _ =>
    match fuel with
    | 0 => none
    | fuel + 1 =>
      match m.step with
      | (.ok _, m) =>
        match m.outputs[seen]? with
        | some value => some (.ok (.output value), m)
        | none => stepsToOutput seen fuel m
      | (.error fault, m) => some (.error fault, m)

/-- Runs to the next output. -/
def runToOutput (fuel : Nat) (m : Machine) : Option (Result Outcome) :=
  m.stepsToOutput m.outputs.size fuel

end Machine
end IntcodeMachine
