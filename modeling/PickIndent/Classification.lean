import PickIndent.Keyword.Match
import PickIndent.Label
import PickIndent.Lexeme.Code

/-!
# Classification — what a line does to the nesting

A line opens or closes a block by the keyword that its code begins with. Three kinds of line look as
if they opened one but do not: a loop that is closed again on the same line, a statement whose clause
is complete, and a `CASE` with its statements behind it.

Classification looks at one line alone. What a `CASE` closes depends on the lines before it and is
left to the nesting.
-/

namespace PickIndent

structure Classification where
  keyword : Option Keyword
  opens : Bool
  closes : Bool
  code : Text
  /-- The line also holds the statement that closes its block. -/
  oneLine : Bool := false
  deriving DecidableEq, Repr

/-- The statements of a line, trimmed. -/
def statements (code : Text) : List Text := ((code.splitOn ';').map trim).filter (· != [])

/-- Whether the last statement closes the block that `k` opens: it is, or ends in, the closing
keyword. -/
def closesItself (d : Dialect) (code : Text) (k : Keyword) : Bool :=
  match k.closer?, (statements code).getLast? with
  | some closer, some last =>
    (1 < (statements code).length && closer.fits d last) ||
      endsInWord (letter d.ignoreCase) isBlank closer.text last
  | _, _ => false

/-- Whether a `CASE` has statements on its own line. -/
def holdsStatements (code : Text) : Bool := (dropSemicolon code).contains ';'

/-- Whether a line with this code opens the block of the keyword `k`. -/
def opensBlock (d : Dialect) (code : Text) (k : Keyword) : Bool :=
  k.opens && !closesItself d code k && (!k.inlineOnly || endsOpen d code) &&
    !(k == .caseBranch && holdsStatements code)

def classifyCode (d : Dialect) (code : Text) : Classification :=
  match Keyword.find? d code with
  | none => { keyword := none, opens := false, closes := false, code }
  | some k =>
    { keyword := some k, opens := opensBlock d code k, closes := k.closes d, code
      oneLine := closesItself d code k }

/-- The code of a line behind its label. -/
def codeOf (line : Text) : Except StrayNewline Text := codeText (dropLabel line)

def classify (d : Dialect) (line : Text) : Except StrayNewline Classification :=
  if isDirective line then
    .ok { keyword := none, opens := false, closes := false, code := trim line }
  else (codeOf line).map (classifyCode d)

namespace Classification

/-- The keyword of a line that opens a block. -/
def opener? (c : Classification) : Option Keyword := if c.opens then c.keyword else none

/-- The keyword of a line that closes a block. A `CASE` is one of them: it ends the branch before
it, if there is one. -/
def closer? (c : Classification) : Option Keyword :=
  if c.closes || c.keyword == some .caseBranch then c.keyword else none

end Classification

end PickIndent
