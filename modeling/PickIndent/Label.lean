import PickIndent.Lexeme.Scan
import PickIndent.Unicode.Alphanumeric
import PickIndent.Unicode.DecimalDigit

/-!
# Labels and directives

A line may begin with a label: a name and a colon, or a statement number with or without a colon.
The label ends at a blank or at the end of the line; `X:=1` begins with none. The name begins with
an ASCII letter or underscore and goes on with word characters of any script, and the digits of a
statement number are those of any script.

A line that begins with an exclamation mark is a directive, which the layout leaves alone.
-/

namespace PickIndent

def isLabelPart (c : Char) : Bool := isWordChar c || c == '.' || c == '$' || c == '%'

/-- A label made of a name and a colon, and what follows it. -/
def splitNameLabel? : Text → Option (Text × Text)
  | [] => none
  | c :: t =>
    if isWordStart c then
      match t.dropWhile isLabelPart with
      | ':' :: rest => some (c :: t.takeWhile isLabelPart ++ [':'], rest)
      | _ => none
    else none

/-- A label made of a statement number, and what follows it. -/
def splitNumberLabel? : Text → Option (Text × Text)
  | [] => none
  | c :: t =>
    if isDecimalDigit c then
      let number := splitNumber isDecimalDigit t
      match number.2 with
      | ':' :: rest => some (c :: number.1 ++ [':'], rest)
      | rest => some (c :: number.1, rest)
    else none

/-- The label that a trimmed line begins with, and what follows it. -/
def splitLabel? (t : Text) : Option (Text × Text) :=
  ((splitNameLabel? t).or (splitNumberLabel? t)).filter fun p => startsWithOrEnds isBlank p.2

/-- The label of a line. -/
def label? (line : Text) : Option Text := (splitLabel? (trim line)).map Prod.fst

/-- A line without its label, trimmed. -/
def dropLabel (line : Text) : Text :=
  match splitLabel? (trim line) with
  | some (_, rest) => trim rest
  | none => trim line

def isDirective (line : Text) : Bool := (trim line).head? == some '!'

end PickIndent
