import PickIndent.Command.Plan

/-!
# The program

The plan of a run is carried out on the files of the system. What the system says about a path is
told apart as far as a plan has to know it; any other error of the system ends the run.
-/

namespace PickIndent.Command

/-- The system's number for a directory in the place of a file. -/
def isDirectoryCode : UInt32 := 21

def pathError? : IO.Error → Option PathError
  | .noFileOrDirectory .. => some .missing
  | .inappropriateType _ code _ =>
    some (if code = isDirectoryCode then .isDirectory else .notDirectory)
  | .invalidArgument .. => some .nameTooLong
  | _ => none

/-- Does something with a path and tells the faults of the path from other errors. -/
def attempt {α : Type} (action : IO α) : IO (Except PathError α) := do
  try
    return .ok (← action)
  catch e =>
    match pathError? e with
    | some fault => return .error fault
    | none => throw e

def readSource (path : String) : IO (Except PathError Bytes) :=
  attempt do
    let bytes ← IO.FS.readBinFile path
    return bytes.toList

/-- Opens the file, which empties it, and then writes the text in its encoding. -/
def writeResult (s : Saving) : IO Report := do
  let outcome ← attempt do
    IO.FS.writeBinFile s.path .empty
    match s.bytes? with
    | none => return s.notEncodable
    | some bytes =>
      IO.FS.writeBinFile s.path ⟨bytes.toArray⟩
      return s.done
  match outcome with
  | .ok report => return report
  | .error fault => return s.refused fault

def perform (program : String) (arguments : List String) : IO Report := do
  match readArguments arguments with
  | .error stop => return .ofStop program stop
  | .ok request =>
    match plan request (← readSource request.source) with
    | .report r => return r
    | .save s => writeResult s

end PickIndent.Command

open PickIndent.Command in
def main (arguments : List String) : IO UInt32 := do
  let report ← perform "pickfmt" arguments
  IO.print report.stdout
  IO.eprint report.stderr
  match report.ending with
  | .code n => return n.toUInt32
  | .failure f =>
    IO.eprintln f.message
    return 1
