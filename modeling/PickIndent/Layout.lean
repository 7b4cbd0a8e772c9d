import PickIndent.Keyword.Basic
import PickIndent.Label

/-!
# Layout — how a line is written at its level

A line is written behind a margin and the indentation of its level. A label stands in the margin,
and the rest of its line keeps the column of its level as long as the label leaves room for that.
Directives, and labelled lines if so desired, are not moved.
-/

namespace PickIndent

structure Style where
  /-- The width of the left margin. -/
  margin : Int := 5
  /-- The number of spaces for each level. -/
  indent : Int := 3
  /-- Whether a label stands in the margin, with the rest of its line indented. -/
  labelsInMargin : Bool := true
  deriving DecidableEq, Repr

structure Options extends Dialect, Style
  deriving DecidableEq, Repr

/-- A label and the trimmed rest of its line. -/
def renderLabelled (s : Style) (level : Int) (label rest : Text) : Text :=
  let indentation := spaces (s.indent * level)
  if rest = [] then label
  else if label.length < s.margin ∨ indentation ≠ [] then padTo s.margin label ++ indentation ++ rest
  else label ++ ' ' :: rest

/-- A line that is not blank, written at a level. -/
def renderLine (s : Style) (level : Int) (line : Text) : Text :=
  if isDirective line then trimEnd line
  else
    match splitLabel? (trim line) with
    | none => spaces s.margin ++ spaces (s.indent * level) ++ trim line
    | some (label, rest) =>
      if s.labelsInMargin then renderLabelled s level label (trim rest) else trim line

end PickIndent
