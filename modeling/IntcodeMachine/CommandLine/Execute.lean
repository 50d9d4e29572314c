import IntcodeMachine.Breakout.Play
import IntcodeMachine.CommandLine.Arguments
import IntcodeMachine.Disassembly
import IntcodeMachine.Listing
import IntcodeMachine.Snapshot.Machine

/-!
# Commands

What each command writes and the status it ends with. A command that runs a
program need not end, so all take the number of steps that may be tried.
-/
namespace IntcodeMachine

/-- What a command has written when it ends, and the status it ends with. -/
structure Report where
  status : UInt32 := 0
  output : String := ""
  errors : String := ""
deriving DecidableEq, Repr

namespace Report

/-- The report of a command that fails. -/
def failure (output errors message : String) : Report where
  status := 1
  output
  errors := errors ++ "❌ " ++ message ++ "\n"

/-- The report on arguments that are not understood. -/
def usage : Report where
  status := 2
  errors := "usage: intcode-vm [-v] [--version]\n" ++
    "       intcode-vm [-v] run PROGRAM [-i N]... [-t] [--dump-state]\n" ++
    "       intcode-vm [-v] arcade PROGRAM [-f] [-q]\n" ++
    "       intcode-vm [-v] disasm PROGRAM\n"

end Report

/-! ## Running a program -/

/-- A program that is being run: its machine, the inputs that are still to come, and what has been
written. -/
structure Session where
  machine : Machine
  inputs : List Cell
  output : String := ""
  errors : String := ""
deriving DecidableEq

namespace Session

/-- A session at its start. The first input waits in the register. -/
def load (program inputs : List Cell) : Session where
  machine := .load program inputs.head?
  inputs := inputs.tail

/-- The line that shows where the machine stands, unless its counter is no address. -/
def traceLine (m : Machine) : String :=
  if m.counter < 0 then ""
  else
    let address := m.counter.toInt.toNat
    String.ofList (Decimal.padded 5 address) ++ ": " ++
      Disassembly.padded 24 (Disassembly.entryAt m.memory address).text ++ " rb=" ++ m.base.text ++ "\n"

/-- The session after an instruction has been executed. The register is filled again once it has
been read, as long as there are inputs; outputs are written as they come. -/
def after (s : Session) (i : Instruction) : Session :=
  match i.opcode with
  | .input =>
    match s.inputs with
    | value :: inputs => { s with machine := s.machine.setInput value, inputs }
    | [] => s
  | .output =>
    match s.machine.channel.lastOutput with
    | some value => { s with output := s.output ++ value.text ++ "\n" }
    | none => s
  | _ => s

/-- Steps until the machine no longer runs. An error comes with the counter where it arose. -/
def run (trace : Bool) (fuel : Nat) (s : Session) : Option (Except (Cell × Fault) Unit × Session) :=
  match s.machine.status with
  | .running =>
    match fuel with
    | 0 => none
    | fuel + 1 =>
      let ⟨machine, inputs, output, errors⟩ := s
      let counter := machine.counter
      let errors := if trace then errors ++ traceLine machine else errors
      match machine.step with
      | (.ok i, machine) => run trace fuel (after ⟨machine, inputs, output, errors⟩ i)
      | (.error fault, machine) =>
        some (.error (counter, fault), ⟨machine, inputs, output, errors⟩)
  | _ => some (.ok (), s)

/-- What remains to be reported when a session has ended. -/
def report (dumpState : Bool) : Except (Cell × Fault) Unit × Session → Report
  | (.ok (), s) =>
    let dump := if dumpState then Snapshot.write .indented s.machine ++ "\n" else ""
    { output := s.output ++ dump, errors := s.errors }
  | (.error (counter, fault), s) =>
    .failure s.output s.errors ("VM error at PC=" ++ counter.text ++ ": " ++ fault.message)

end Session

/-! ## The arcade -/

namespace CommandLine

/-- The report of a game that has been played. -/
def reportGame (output : String) : Except GameError Cell → Game → Report
  | .ok score, g =>
    { output := output ++ "Score: " ++ score.text ++ "\nBlocks remaining: " ++
        Decimal.text g.screen.blocks ++ "\n" }
  | .error e, _ => .failure output "" ("Arcade error: " ++ e.message)

/-- Plays a game, and shows it on the terminal unless it is to be quiet. -/
def playGame (fuel : Nat) (quiet : Bool) (g : Game) : Option Report :=
  if quiet then
    (g.play .silent fuel fuel ()).map fun (result, _, g) => reportGame "" result g
  else
    (g.play (.text true) fuel fuel {}).map fun (result, sink, g) =>
      reportGame sink.written result g

/-! ## The demonstration -/

/-- The program of the demonstration. -/
def demoProgram : List Cell := [104, 1, 104, 2, 104, 3, 99]

/-- What precedes the demonstration. -/
def banner : String :=
  "Intcode VM v0.1.0\nA self-modifying Intcode interpreter\n\nUse --help for available commands\n\n"

/-- Runs a machine from output to output and writes them. -/
def demonstrate (stepFuel : Nat) : Nat → String → Machine → Option Report
  | 0, _, _ => none
  | fuel + 1, written, m =>
    match m.runToOutput stepFuel with
    | none => none
    | some (.ok (.output value), m) =>
      demonstrate stepFuel fuel (written ++ "  output: " ++ value.text ++ "\n") m
    | some (.ok .halted, m) =>
      some { output := written ++ "  halted after " ++ Decimal.text m.steps.toNat ++ " instructions\n" }
    | some (.error fault, _) => some (.failure written "" ("VM error: " ++ fault.message))

/-- The demonstration. -/
def demo (fuel : Nat) : Option Report :=
  demonstrate fuel fuel (banner ++ "━━━ Demo ━━━\n\n" ++ Disassembly.listing demoProgram ++ "\n")
    (.load demoProgram none)

/-! ## Commands -/

/-- Goes on with the program in a file, or reports why there is none. -/
def withProgram (files : String → Except ReadFailure ByteArray) (path : String)
    (go : List Cell → Option Report) : Option Report :=
  match Listing.load (files path) with
  | .ok program => go program
  | .error e => some (.failure "" "" ("Failed to load " ++ path ++ ": " ++ e.message))

/-- Carries out a command. -/
def execute (fuel : Nat) (files : String → Except ReadFailure ByteArray) : Command → Option Report
  | .version => some { output := "intcode-vm 0.1.0\n" }
  | .demo => demo fuel
  | .run path inputs trace dumpState => withProgram files path fun program =>
    ((Session.load program inputs).run trace fuel).map (Session.report dumpState)
  | .arcade path freePlay quiet => withProgram files path fun program =>
    let game := Game.load program
    playGame fuel quiet (if freePlay then game.insertQuarters else game)
  | .disassemble path => withProgram files path fun program =>
    some { output := Disassembly.listing program ++ "\n" }

/-- What the program does with its arguments. -/
def answer (fuel : Nat) (files : String → Except ReadFailure ByteArray) (arguments : List String) :
    Option Report :=
  match parse? arguments with
  | some command => execute fuel files command
  | none => some .usage

end CommandLine
end IntcodeMachine
