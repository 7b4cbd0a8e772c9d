import PickIndent.Layout

/-!
# Flags of the command line

A flag is a switch, or a setting that takes a value. Every flag has a long spelling, and some have a
short one as well. The order of `Flag.all` is the order in which the flags are listed, in the help as
in a message about an ambiguous spelling.
-/

namespace PickIndent.Command

inductive Switch where
  | help
  | inPlace
  | check
  | diff
  | ignoreCase
  | returnCloses
  | noLabelMargin
  | verbose
  deriving DecidableEq, Repr

inductive Setting where
  | margin
  | indent
  | encoding
  deriving DecidableEq, Repr

inductive Flag where
  | switch (s : Switch)
  | setting (s : Setting)
  deriving DecidableEq, Repr

namespace Switch

def short? : Switch → Option Char
  | .help => some 'h'
  | .inPlace => some 'i'
  | .verbose => some 'v'
  | _ => none

def long : Switch → String
  | .help => "--help"
  | .inPlace => "--in-place"
  | .check => "--check"
  | .diff => "--diff"
  | .ignoreCase => "--ignore-case"
  | .returnCloses => "--return-closes"
  | .noLabelMargin => "--no-label-margin"
  | .verbose => "--verbose"

def about : Switch → String
  | .help => "show this help message and exit"
  | .inPlace => "Rewrite the source file"
  | .check => "Do not write anything; exit 1 if the file is not formatted"
  | .diff => "Print a unified diff instead of the formatted program"
  | .ignoreCase => "Match keywords regardless of case"
  | .returnCloses => "Treat RETURN as the end of a block"
  | .noLabelMargin =>
    "Leave labelled lines unindented instead of placing the label in the margin"
  | .verbose => "Show which lines were re-indented"

end Switch

namespace Setting

def long : Setting → String
  | .margin => "--margin"
  | .indent => "--indent"
  | .encoding => "--encoding"

/-- The name that stands for the value in the help. -/
def valueName : Setting → String
  | .margin => "MARGIN"
  | .indent => "INDENT"
  | .encoding => "ENCODING"

/-- The name of the encoding in effect when none is given. -/
def defaultEncoding : String := "utf-8"

def about : Setting → String
  | .margin => "Width of the left margin (default: " ++ toString ({} : Style).margin ++ ")"
  | .indent => "Spaces per nesting level (default: " ++ toString ({} : Style).indent ++ ")"
  | .encoding => "Encoding of the source file (default: " ++ defaultEncoding ++ ")"

end Setting

namespace Flag

def all : List Flag :=
  [.switch .help, .switch .inPlace, .switch .check, .switch .diff, .setting .margin, .setting .indent,
   .switch .ignoreCase, .switch .returnCloses, .switch .noLabelMargin, .setting .encoding,
   .switch .verbose]

/-- The short spelling of a switch. -/
def shortSpelling (c : Char) : String := String.ofList ['-', c]

def spellings : Flag → List String
  | .switch s => (s.short?.map shortSpelling).toList ++ [s.long]
  | .setting s => [s.long]

/-- How messages name a flag. -/
def name (f : Flag) : String := "/".intercalate f.spellings

def about : Flag → String
  | .switch s => s.about
  | .setting s => s.about

/-- How the usage line shows a flag: by its first spelling. -/
def usage : Flag → String
  | .switch s => "[" ++ (s.short?.map shortSpelling).getD s.long ++ "]"
  | .setting s => "[" ++ s.long ++ " " ++ s.valueName ++ "]"

/-- How the help shows a flag: by all its spellings. -/
def invocation : Flag → String
  | .switch s => ", ".intercalate (Flag.switch s).spellings
  | .setting s => s.long ++ " " ++ s.valueName

/-- Every spelling with its flag, in order. -/
def spelled : List (String × Flag) := all.flatMap fun f => f.spellings.map (·, f)

end Flag

end PickIndent.Command
