import PickIndent.Command.Arguments
import PickIndent.Command.Usage
import PickIndent.Diff.Unified
import PickIndent.Document
import PickIndent.Encoding.Codec
import PickIndent.FileTree

/-!
# Plans — what a run of the program is to do

A run reads one file and writes at most one. Between the two it only computes, so that all it prints
and writes is a plan made from the arguments and the bytes of the source. Checking comes before
showing a diff, and both come before writing.
-/

namespace PickIndent.Command

/-- What ends a run without an exit code. -/
inductive Failure where
  | unknownEncoding (name : String)
  /-- The name of the encoding has a character U+0000. -/
  | nullInEncoding
  /-- The path of the output has a character U+0000. -/
  | nullInPath
  /-- The program has a character that its encoding lacks. -/
  | notEncodable
  deriving DecidableEq, Repr

def Failure.message : Failure → String
  | .unknownEncoding name => "unknown encoding: " ++ name
  | .nullInEncoding => "embedded null character"
  | .nullInPath => PathError.nullCharacter.message ""
  | .notEncodable => "character not in the encoding"

inductive Ending where
  | code (n : Nat)
  | failure (f : Failure)
  deriving DecidableEq, Repr

/-- What a run has printed and how it ends. -/
structure Report where
  stdout : String := ""
  stderr : String := ""
  ending : Ending := .code 0
  deriving DecidableEq, Repr

namespace Report

/-- The report of a run that ends with an error message. -/
def error (stderr message : String) : Report :=
  { stdout := "Error: " ++ message ++ "\n", stderr, ending := .code 1 }

/-- The report of a run without a request. -/
def ofStop (program : String) : Stop → Report
  | .help => { stdout := help program }
  | .misuse e =>
    { stderr := usage program ++ program ++ ": error: " ++ e.message ++ "\n", ending := .code 2 }

end Report

/-- A file to be written. -/
structure Saving where
  path : String
  encoding : Encoding
  text : Text
  verbose : Bool
  /-- What has been printed to the standard error stream before. -/
  stderr : String
  deriving DecidableEq, Repr

namespace Saving

def done (s : Saving) : Report :=
  { stderr := s.stderr ++ if s.verbose then "Saved formatted program to " ++ s.path ++ "\n" else "" }

/-- The bytes of the file. -/
def bytes? (s : Saving) : Option Bytes := s.encoding.encode? s.text

def notEncodable (s : Saving) : Report := { stderr := s.stderr, ending := .failure .notEncodable }

def refused (s : Saving) : PathError → Report
  | .nullCharacter => { stderr := s.stderr, ending := .failure .nullInPath }
  | e => .error s.stderr (e.message s.path)

end Saving

inductive Plan where
  | report (r : Report)
  | save (s : Saving)
  deriving DecidableEq, Repr

/-! ### Messages -/

/-- How many edits are listed one by one. -/
def listedEdits : Nat := 10

def listEdit (e : Edit) : String :=
  "  " ++ toString (e.line + 1) ++ ": " ++ String.ofList (trim e.text) ++ "\n"

/-- What is said about the edits when the user wants to know. -/
def editSummary (source : String) (edits : List Edit) : String :=
  "Info: " ++ toString edits.length ++ " line(s) re-indented in " ++ source ++ "\n" ++
    String.join ((edits.take listedEdits).map listEdit) ++
    if listedEdits < edits.length then
      "  ... and " ++ toString (edits.length - listedEdits) ++ " more\n"
    else ""

/-! ### Plans -/

/-- The path of the file to be written: the output if it is given, else the source. -/
def Request.destination (r : Request) : String := if r.output = "" then r.source else r.output

/-- The plan for a program that has been formatted. -/
def planFormatted (r : Request) (e : Encoding) (content : Text) (result : Formatted) : Plan :=
  let stderr := if r.verbose then editSummary r.source result.edits else ""
  if r.check then
    if result.text = content then .report { stderr }
    else .report { stdout := "Would reformat " ++ r.source ++ "\n", stderr, ending := .code 1 }
  else if r.diff then
    .report { stdout := String.ofList (Diff.unified r.source content result.text).flatten, stderr }
  else if r.inPlace || r.output != "" then
    .save { path := r.destination, encoding := e, text := result.text, verbose := r.verbose, stderr }
  else .report { stdout := String.ofList result.text, stderr }

/-- What a name that stands for no encoding fails with. -/
def Failure.ofEncoding (name : String) : Failure :=
  if hasNull name then .nullInEncoding else .unknownEncoding name

/-- The plan for a source with these bytes. -/
def planBytes (r : Request) (bytes : Bytes) : Plan :=
  match Encoding.ofName? r.encoding with
  | none => .report { ending := .failure (.ofEncoding r.encoding) }
  | some e =>
    match e.decode bytes with
    | .error fault => .report (.error "" fault.message)
    | .ok content =>
      match formatEdits r.options content with
      | .error fault => .report (.error "" fault.message)
      | .ok result => planFormatted r e content result

/-- The plan for a source that has been looked for. A directory cannot be opened, and a name with a
character U+0000 is found out before. -/
def plan (r : Request) : Except PathError Bytes → Plan
  | .ok bytes => planBytes r bytes
  | .error .isDirectory =>
    if hasNull r.encoding then .report { ending := .failure .nullInEncoding }
    else .report (.error "" (PathError.isDirectory.message r.source))
  | .error _ => .report (.error "" ("File '" ++ r.source ++ "' not found"))

end PickIndent.Command
