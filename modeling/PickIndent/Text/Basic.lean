import PickIndent.Unicode.Blank

/-!
# Text

Text is a list of characters. Here are the operations the layout of a line is built from: trimming
blanks at either end, runs of spaces, and padding to a width. Widths are integers, and a width that
is not positive asks for nothing.
-/

namespace PickIndent

abbrev Text := List Char

def isBlankText (t : Text) : Bool := t.all isBlank

/-! ### Trimming -/

def trimStart (t : Text) : Text := t.dropWhile isBlank

def trimEnd (t : Text) : Text := (t.reverse.dropWhile isBlank).reverse

def trim (t : Text) : Text := trimEnd (trimStart t)

/-! ### Spaces -/

/-- A run of `n` spaces; none when `n` is not positive. -/
def spaces (n : Int) : Text := List.replicate n.toNat ' '

/-- Text followed by as many spaces as it falls short of the width. -/
def padTo (width : Int) (t : Text) : Text := t ++ spaces (width - t.length)

/-! ### Beginnings and ends -/

/-- What follows a word at the beginning of a text. The characters of the text are folded before they
are compared with those of the word. -/
def dropFront? (fold : Char → Char) : Text → Text → Option Text
  | [], t => some t
  | _ :: _, [] => none
  | w :: ws, c :: t => if fold c = w then dropFront? fold ws t else none

/-- Whether nothing follows or the next character is one of those that `p` admits. -/
def startsWithOrEnds (p : Char → Bool) : Text → Bool
  | [] => true
  | c :: _ => p c

/-- Whether a text, folded, ends in a word, and the character before the word, if there is one, is one
that `p` admits. -/
def endsInWord (fold : Char → Char) (p : Char → Bool) (word t : Text) : Bool :=
  match dropFront? fold word.reverse t.reverse with
  | none => false
  | some before => startsWithOrEnds p before

end PickIndent
