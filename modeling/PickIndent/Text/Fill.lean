/-!
# Filling lines with words

Words are set one after the other, with one space between them, as long as the line stays within its
width. A word that is wider than the line has a line of its own.
-/

namespace PickIndent

/-- The lines that begin with `line` and go on with the words. -/
def fillFrom (width : Nat) (line : String) : List String → List String
  | [] => [line]
  | word :: words =>
    if line.length + 1 + word.length ≤ width then fillFrom width (line ++ " " ++ word) words
    else line :: fillFrom width word words

def fill (width : Nat) : List String → List String
  | [] => []
  | word :: words => fillFrom width word words

end PickIndent
