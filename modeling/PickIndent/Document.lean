import PickIndent.Pass

/-!
# Documents — a program with its line endings

A document is cut at every line feed, and a carriage return before one belongs to the line ending.
The result has one line ending throughout, the one that at least half of the lines had. The change
is also given as a list of edits, one for each line that becomes different.
-/

namespace PickIndent

/-! ### Line endings -/

inductive LineEnding where
  | lf
  | crlf
  deriving DecidableEq, Repr

def LineEnding.text : LineEnding → Text
  | .lf => ['\n']
  | .crlf => ['\r', '\n']

/-- Text without the carriage returns that stand right before a line feed. -/
def unifyEndings : Text → Text
  | c :: d :: t => if c = '\r' ∧ d = '\n' then unifyEndings (d :: t) else c :: unifyEndings (d :: t)
  | t => t

/-- The number of line feeds with a carriage return before them. -/
def countCrlf : Text → Nat
  | c :: d :: t => countCrlf (d :: t) + if c = '\r' ∧ d = '\n' then 1 else 0
  | _ => 0

def splitLines (t : Text) : List Text := (unifyEndings t).splitOn '\n'

def joinLines (e : LineEnding) (lines : List Text) : Text := e.text.intercalate lines

/-- Carriage return and line feed if there are some and they are at least half of all endings. -/
def lineEnding (t : Text) : LineEnding :=
  if 0 < countCrlf t ∧ t.count '\n' ≤ countCrlf t * 2 then .crlf else .lf

/-- The index of the last line that is not blank. -/
def lastCodeLine? (lines : List Text) : Option Nat :=
  (lines.reverse.findIdx? (!isBlankText ·)).map (lines.length - 1 - ·)

/-! ### Formatting -/

def formatText (o : Options) (t : Text) : Except PassError Text :=
  (formatLines o (splitLines t)).map (joinLines (lineEnding t))

/-- The replacement of a stretch of characters of a line. Lines and characters count from zero. -/
structure Edit where
  line : Nat
  first : Nat
  last : Nat
  text : Text
  deriving DecidableEq, Repr

/-- The edits that turn the lines from the line numbered `n` on into others. -/
def editsFrom (n : Nat) : List Text → List Text → List Edit
  | old :: olds, new :: news =>
    if old = new then editsFrom (n + 1) olds news
    else ⟨n, 0, old.length, new⟩ :: editsFrom (n + 1) olds news
  | _, _ => []

structure Formatted where
  text : Text
  edits : List Edit
  deriving DecidableEq, Repr

def Formatted.changed (r : Formatted) : Bool := !r.edits.isEmpty

/-- The formatted text together with the edits that lead to it. -/
def formatEdits (o : Options) (t : Text) : Except PassError Formatted :=
  (formatLines o (splitLines t)).map fun lines =>
    { text := joinLines (lineEnding t) lines, edits := editsFrom 0 (splitLines t) lines }

end PickIndent
