import PickIndent.Keyword.Basic
import PickIndent.Text.Letter
import PickIndent.Unicode.Alphanumeric

/-!
# Finding the keyword of a line

The code of a line is looked at from both ends. A keyword stands at its beginning, as whole words
that a blank, an opening parenthesis or the end follows. A continuation word stands at its end,
before at most one semicolon.
-/

namespace PickIndent

/-- What follows the words at the beginning of a text, where blanks separate one from the next. -/
def dropWords? (fold : Char → Char) : List Text → Text → Option Text
  | [], t => some t
  | [w], t => dropFront? fold w t
  | w :: ws, t =>
    match dropFront? fold w t with
    | some (c :: rest) => if isBlank c then dropWords? fold ws (trimStart rest) else none
    | _ => none

namespace Keyword

/-- What may follow a keyword. -/
def endsKeyword (c : Char) : Bool := isBlank c || c == '('

/-- Whether code begins with the keyword. -/
def fits (d : Dialect) (code : Text) (k : Keyword) : Bool :=
  match dropWords? (letter d.ignoreCase) k.words code with
  | some rest => startsWithOrEnds endsKeyword rest
  | none => false

/-- The first keyword of the table that code begins with. -/
def find? (d : Dialect) (code : Text) : Option Keyword := table.find? (fits d code)

end Keyword

/-- Text without the semicolon at its very end. -/
def dropSemicolon (t : Text) : Text := if t.getLast? = some ';' then t.dropLast else t

/-- Whether code ends in a continuation word, which may have a semicolon after it. -/
def endsOpen (d : Dialect) (code : Text) : Bool :=
  Keyword.continuations.any fun w =>
    endsInWord (letter d.ignoreCase) (!isWordChar ·) w (trimEnd (dropSemicolon code))

end PickIndent
