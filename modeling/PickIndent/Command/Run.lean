import PickIndent.Command.Plan

/-!
# Running the program on a tree of files
-/

namespace PickIndent.Command

/-- Saves a file at a place. Opening the file empties it, and only then is the text turned into bytes. -/
def Saving.saveAt (s : Saving) (place : Place) (files : FileTree) : Report × FileTree :=
  let opened := files.put place []
  match s.bytes? with
  | none => (s.notEncodable, opened)
  | some bytes => (s.done, opened.put place bytes)

/-- Carries out a plan. Nothing but the file to be saved changes. -/
def Plan.carryOut (files : FileTree) : Plan → Report × FileTree
  | .report r => (r, files)
  | .save s =>
    match files.target s.path with
    | .error e => (s.refused e, files)
    | .ok place => s.saveAt place files

def runRequest (r : Request) (files : FileTree) : Report × FileTree :=
  (plan r (files.read r.source)).carryOut files

/-- Runs the program called `program` with arguments on a tree of files. -/
def run (program : String) (arguments : List String) (files : FileTree) : Report × FileTree :=
  match readArguments arguments with
  | .error stop => (.ofStop program stop, files)
  | .ok request => runRequest request files

end PickIndent.Command
