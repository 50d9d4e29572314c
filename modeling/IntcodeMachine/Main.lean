import IntcodeMachine.CommandLine.Execute

/-!
# The program

Reads the file that a command names, carries the command out, and writes its
report.
-/
namespace IntcodeMachine

/-- The bytes of a file, or why they cannot be read. A directory can be opened and fails when it is
read, and then the error has no name; the other failures name the path. -/
def readFile (path : String) : BaseIO (Except ReadFailure ByteArray) := do
  match ← (IO.FS.readBinFile path).toBaseIO with
  | .ok bytes => return .ok bytes
  | .error (.inappropriateType none ..) => return .error .isDirectory
  | .error (.inappropriateType ..) => return .error .notDirectory
  | .error (.invalidArgument ..) => return .error .nameTooLong
  | .error _ => return .error .missing

/-- The file that a command reads. -/
def Command.path? : Command → Option String
  | .run path .. | .arcade path .. | .disassemble path => some path
  | .version | .demo => none

end IntcodeMachine

open IntcodeMachine in
/-- Carries out what the arguments ask for. -/
def main (arguments : List String) : IO UInt32 := do
  let file ← match (CommandLine.parse? arguments).bind Command.path? with
    | some path => readFile path
    | none => pure (.error .missing)
  match CommandLine.answer 1000000000000000000 (fun _ => file) arguments with
  | some report =>
    IO.print report.output
    IO.eprint report.errors
    return report.status
  | none => return 1
