import IntcodeMachine.Text.Decimal

/-!
# Arguments

The arguments of the command line: options in their long and short forms, short
ones in clusters, values attached or as the next argument, and operands. After
`--` there are only operands. `Command.parse?` answers the command that the
arguments ask for, or nothing if they are not understood.
-/
namespace IntcodeMachine

/-- What the program is asked to do. -/
inductive Command
  | version
  | demo
  | run (program : String) (inputs : List Cell) (trace dumpState : Bool)
  | arcade (program : String) (freePlay quiet : Bool)
  | disassemble (program : String)
deriving DecidableEq, Repr

namespace CommandLine

/-- An option: its names, whether it has a value, and whether it can be given more than once. -/
structure OptionSpec where
  long : String
  short : Option Char := none
  hasValue : Bool := false
  repeats : Bool := false
deriving DecidableEq, Repr

/-- An argument as it is understood: an option with its value, which is empty if it has none, or
an operand. -/
inductive Argument
  | option (long value : String)
  | operand (text : String)
deriving DecidableEq, Repr

/-- The forms of an argument: an option with its long name and perhaps a value, a cluster of short
names, or an operand. -/
inductive Form
  | long (name : String) (value : Option String)
  | cluster (names : List Char)
  | operand
deriving DecidableEq, Repr

/-- The form of an argument other than `--`. -/
def formOf (argument : String) : Form :=
  match argument.toList with
  | '-' :: '-' :: rest =>
    match rest.span (· ≠ '=') with
    | (name, []) => .long (String.ofList name) none
    | (name, _ :: value) => .long (String.ofList name) (some (String.ofList value))
  | '-' :: c :: rest => .cluster (c :: rest)
  | _ => .operand

/-- The options in a cluster, and the one at its end whose value is the next argument, if there is
such a one. What follows an option with a value in a cluster is its value. -/
def readCluster (options : List OptionSpec) : List Char → Option (List Argument × Option OptionSpec)
  | [] => some ([], none)
  | c :: rest =>
    match options.find? (·.short == some c) with
    | none => none
    | some o =>
      if o.hasValue then
        match rest with
        | [] => some ([], some o)
        | '=' :: value => some ([.option o.long (String.ofList value)], none)
        | value => some ([.option o.long (String.ofList value)], none)
      else (readCluster options rest).map fun (found, open?) => (.option o.long "" :: found, open?)

/-- Understands arguments. -/
def readArguments (options : List OptionSpec) : List String → Option (List Argument)
  | [] => some []
  | argument :: rest =>
    if argument = "--" then some (rest.map .operand)
    else match formOf argument with
      | .operand => (readArguments options rest).map (.operand argument :: ·)
      | .long name value =>
        match options.find? (·.long == name) with
        | none => none
        | some o =>
          match o.hasValue, value, rest with
          | false, none, rest => (readArguments options rest).map (.option name "" :: ·)
          | true, some value, rest => (readArguments options rest).map (.option name value :: ·)
          | true, none, value :: rest => (readArguments options rest).map (.option name value :: ·)
          | _, _, _ => none
      | .cluster names =>
        match readCluster options names, rest with
        | some (found, none), rest => (readArguments options rest).map (found ++ ·)
        | some (found, some o), value :: rest =>
          (readArguments options rest).map (found ++ .option o.long value :: ·)
        | _, _ => none
termination_by arguments => arguments.length

/-- The values of an option. -/
def valuesOf (long : String) (arguments : List Argument) : List String :=
  arguments.filterMap fun
    | .option name value => if name = long then some value else none
    | .operand _ => none

/-- An option has been given. -/
def isGiven (long : String) (arguments : List Argument) : Bool :=
  !(valuesOf long arguments).isEmpty

/-- The arguments of a subcommand with exactly one operand, which is answered with them. Options
that cannot repeat have been given at most once. -/
def readSubcommand (options : List OptionSpec) (arguments : List String) :
    Option (String × List Argument) := do
  let found ← readArguments options arguments
  if options.any fun o => !o.repeats && (valuesOf o.long found).length > 1 then none
  else
    match found.filterMap fun
      | .operand text => some text
      | .option _ _ => none with
    | [program] => some (program, found)
    | _ => none

/-- The option that is understood everywhere. -/
def verbose : OptionSpec := { long := "verbose", short := some 'v', repeats := true }

/-- The options of `run`. -/
def runOptions : List OptionSpec := [
  verbose,
  { long := "input", short := some 'i', hasValue := true, repeats := true },
  { long := "trace", short := some 't' },
  { long := "dump-state" }]

/-- The options of `arcade`. -/
def arcadeOptions : List OptionSpec := [
  verbose,
  { long := "free-play", short := some 'f' },
  { long := "quiet", short := some 'q' }]

/-- The cell that a value gives. -/
def cell? (value : String) : Option Cell := (Decimal.read value.toList).toOption

/-- The command of a subcommand. -/
def subcommand? (name : String) (arguments : List String) : Option Command :=
  match name with
  | "run" => do
    let (program, found) ← readSubcommand runOptions arguments
    let inputs ← (valuesOf "input" found).mapM cell?
    return .run program inputs (isGiven "trace" found) (isGiven "dump-state" found)
  | "arcade" => do
    let (program, found) ← readSubcommand arcadeOptions arguments
    return .arcade program (isGiven "free-play" found) (isGiven "quiet" found)
  | "disasm" => do
    let (program, _) ← readSubcommand [verbose] arguments
    return .disassemble program
  | _ => none

/-- What a cluster before the subcommand asks for: the version at the first `V`, or to go on. -/
def leadingCluster : List Char → Option (Option Command)
  | [] => some none
  | c :: rest =>
    if c = 'V' then some (some .version) else if c = 'v' then leadingCluster rest else none

/-- The command that the arguments ask for. -/
def parse? : List String → Option Command
  | [] => some .demo
  | argument :: rest =>
    if argument = "--" then if rest.isEmpty then some .demo else none
    else match formOf argument with
      | .operand => subcommand? argument rest
      | .long "version" none => some .version
      | .long "verbose" none => parse? rest
      | .long _ _ => none
      | .cluster names =>
        match leadingCluster names with
        | some (some command) => some command
        | some none => parse? rest
        | none => none

end CommandLine
end IntcodeMachine
