import PickIndent.Command.Flag
import PickIndent.Text.Fill

/-!
# Usage and help

Both are set for a page of 78 columns. The usage lists the flags behind the name of the program and,
on a line of their own, the files. The help explains them in two columns.
-/

namespace PickIndent.Command

def pageWidth : Nat := 78

def blankString (n : Nat) : String := String.ofList (List.replicate n ' ')

/-- Lines of which all but the first are moved to the right. -/
def hanging (indentation : Nat) (lines : List String) : String :=
  ("\n" ++ blankString indentation).intercalate lines

def usage (program : String) : String :=
  let lead := "usage: " ++ program ++ " "
  let width := pageWidth - lead.length
  let flags := fill width (Flag.all.map Flag.usage)
  let files := fill width ["source_file", "[output_file]"]
  lead ++ hanging lead.length (flags ++ files) ++ "\n"

/-! ### Help -/

/-- The files and what is said about them. -/
def fileHelp : List (String × String) :=
  [("source_file", "Path to the Pick BASIC source file"),
   ("output_file", "Optional path to write the formatted program to (default: stdout)")]

def flagHelp : List (String × String) := Flag.all.map fun f => (f.invocation, f.about)

/-- The column in which explanations begin: behind the longest entry. -/
def helpColumn : Nat :=
  (fileHelp ++ flagHelp).foldl (fun n entry => max n entry.1.length) 0 + 4

def helpEntry (entry : String × String) : String :=
  let key := "  " ++ entry.1
  key ++ blankString (helpColumn - key.length) ++
    hanging helpColumn (fill (pageWidth - helpColumn) ((entry.2.splitOn " "))) ++ "\n"

def sampleCommands : String :=
  "Examples:\n" ++
  "  pickfmt PROGRAM.BP                   # Print the formatted program\n" ++
  "  pickfmt PROGRAM.BP OUT.BP            # Write the formatted program to OUT.BP\n" ++
  "  pickfmt PROGRAM.BP -i                # Format in place\n" ++
  "  pickfmt PROGRAM.BP --check           # Exit 1 if the file would change\n" ++
  "  pickfmt PROGRAM.BP --diff            # Show the changes as a unified diff\n" ++
  "        \n"

def help (program : String) : String :=
  usage program ++ "\nRe-indent a Pick BASIC program from its block structure.\n" ++
    "\npositional arguments:\n" ++ String.join (fileHelp.map helpEntry) ++
    "\noptions:\n" ++ String.join (flagHelp.map helpEntry) ++ "\n" ++ sampleCommands

end PickIndent.Command
