import PickIndent.Text.Basic

/-!
# Lines of a text with their ends

Text is cut after every character that ends a line in some convention: line feed, vertical tab, form
feed, carriage return, the file, group and record separators, next line, and the line and paragraph
separators. A carriage return and a line feed together are one end. The last line may have none.
-/

namespace PickIndent

def endsLine (c : Char) : Bool :=
  c == '\n' || c == '\x0b' || c == '\x0c' || c == '\r' || c == '\x1c' || c == '\x1d' || c == '\x1e' ||
    c == '\u0085' || c == '\u2028' || c == '\u2029'

/-- Puts a character in front of the first line. -/
def consFirst (c : Char) : List Text → List Text
  | [] => [[c]]
  | line :: lines => (c :: line) :: lines

/-- The lines of a text, each with its end. -/
def endedLines : Text → List Text
  | [] => []
  | [c] => [[c]]
  | c :: d :: t =>
    if c = '\r' ∧ d = '\n' then consFirst c (endedLines (d :: t))
    else if endsLine c then [c] :: endedLines (d :: t)
    else consFirst c (endedLines (d :: t))

theorem flatten_consFirst (c : Char) (lines : List Text) :
    (consFirst c lines).flatten = c :: lines.flatten := by
  cases lines <;> rfl

theorem flatten_endedLines (t : Text) : (endedLines t).flatten = t := by
  fun_induction endedLines t with
  | case1 => rfl
  | case2 => rfl
  | case3 _ _ _ _ ih => rw [flatten_consFirst, ih]
  | case4 _ _ _ _ _ ih => simp [ih]
  | case5 _ _ _ _ _ ih => rw [flatten_consFirst, ih]

end PickIndent
