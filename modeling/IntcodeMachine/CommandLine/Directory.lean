import IntcodeMachine.Listing

/-!
# Directories

A directory that holds files and nothing else, and what a path leads to from it.
A path is walked part by part; the directories around this one are taken to hold
nothing that could be reached by a name.
-/
namespace IntcodeMachine

/-- The files of a directory: names and bytes. -/
structure Directory where
  files : List (String × ByteArray) := []

namespace Directory

/-- The greatest length of a name, in bytes. -/
def nameLimit : Nat := 255

/-- The greatest length of a path, in bytes. -/
def pathLimit : Nat := 4095

/-- Where the walk along a path has come to: the directory, one of those around it, or a file. -/
inductive Place
  | here
  | outside
  | file (bytes : ByteArray)

/-- The file with a name. -/
def find? (d : Directory) (name : String) : Option ByteArray :=
  (d.files.find? (·.1 == name)).map (·.2)

/-- What a name leads to from the directory, or from one of those around it. -/
def enter (d : Directory) (isHere : Bool) (name : String) : Except ReadFailure Place :=
  if nameLimit < name.utf8ByteSize then .error .nameTooLong
  else match if isHere then d.find? name else none with
    | some bytes => .ok (.file bytes)
    | none => .error .missing

/-- One part of a path. An empty part and a single point stay in a directory, two points leave it;
nothing, not even an empty part, can follow a file. -/
def step (d : Directory) : Place → String → Except ReadFailure Place
  | .file _, _ => .error .notDirectory
  | place, "" => .ok place
  | place, "." => .ok place
  | _, ".." => .ok .outside
  | .here, name => d.enter true name
  | .outside, name => d.enter false name

/-- What a path leads to. -/
def read (d : Directory) (path : String) : Except ReadFailure ByteArray :=
  if pathLimit < path.utf8ByteSize then .error .nameTooLong
  else if path.isEmpty then .error .missing
  else
    let start := if path.toList.head? = some '/' then .outside else .here
    let parts := (Text.pieces '/' path.toList).map String.ofList
    match parts.foldlM d.step start with
    | .ok (.file bytes) => .ok bytes
    | .ok _ => .error .isDirectory
    | .error failure => .error failure

end Directory
end IntcodeMachine
