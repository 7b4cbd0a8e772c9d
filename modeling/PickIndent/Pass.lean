import PickIndent.Layout
import PickIndent.Nesting

/-!
# A pass over the lines of a program

The pass finds the level of every line, from the first to the last, and then writes each line at its
level. It stops at the first line that has no place. Blank lines have no level and become empty.
-/

namespace PickIndent

/-- A line that has no place in the program. Lines count from one. -/
structure FormatError where
  line : Int
  fault : Fault
  deriving DecidableEq, Repr

inductive PassError where
  /-- A line holds a line feed outside a string literal. -/
  | lexical (e : StrayNewline)
  | structural (e : FormatError)
  deriving DecidableEq, Repr

def FormatError.message (e : FormatError) : String :=
  match e.fault with
  | .belowZero => "Format: nest less than zero on line " ++ toString e.line
  | .outsideCase k =>
    "Format: " ++ String.ofList k.text ++ " without BEGIN CASE on line " ++ toString e.line

def PassError.message : PassError → String
  | .lexical e =>
    "line feed outside a string at line " ++ toString e.line ++ ", column " ++ toString e.column
  | .structural e => e.message

/-- The levels of the lines from the line numbered `n` on, where the lines before them have led to the
nesting `s`. -/
def levelsFrom (d : Dialect) (n : Nat) (s : Nesting) :
    List Text → Except PassError (List (Option Int))
  | [] => .ok []
  | line :: later =>
    if isBlankText line then (levelsFrom d (n + 1) s later).map (none :: ·)
    else
      match classify d line with
      | .error e => .error (.lexical e)
      | .ok c =>
        match s.visit c (later.all isBlankText) with
        | .error fault => .error (.structural ⟨n, fault⟩)
        | .ok (level, s') => (levelsFrom d (n + 1) s' later).map (some level :: ·)

/-- The level of every line; a blank line has none. -/
def levels (d : Dialect) (lines : List Text) : Except PassError (List (Option Int)) :=
  levelsFrom d 1 .outermost lines

/-- A line written at its level, or an empty line. -/
def place (s : Style) (line : Text) : Option Int → Text
  | none => []
  | some level => renderLine s level line

def formatLines (o : Options) (lines : List Text) : Except PassError (List Text) :=
  (levels o.toDialect lines).map (List.zipWith (place o.toStyle) lines)

end PickIndent
