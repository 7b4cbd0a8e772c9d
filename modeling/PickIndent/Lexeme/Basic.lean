import PickIndent.Text.Basic

/-!
# Lexemes — the pieces of a source line

A line of Pick BASIC is never parsed into statements. It is cut into string literals, a trailing
comment, words, numbers, gaps and single other characters, so that no keyword is ever looked for
inside a string or a comment.
-/

namespace PickIndent

inductive LexemeKind where
  | doubleQuoted
  | singleQuoted
  | comment
  | word
  | number
  | gap
  | other
  deriving DecidableEq, Repr

structure Lexeme where
  kind : LexemeKind
  text : Text
  deriving DecidableEq, Repr

def LexemeKind.isString : LexemeKind → Bool
  | .doubleQuoted | .singleQuoted => true
  | _ => false

/-- The text that a list of lexemes stands for. -/
def spell (xs : List Lexeme) : Text := xs.flatMap Lexeme.text

/-- A lexeme with the inside of a string literal removed: of a literal both quotes are left, any
other lexeme stays as it is. -/
def Lexeme.emptied (x : Lexeme) : Lexeme :=
  match x.kind.isString, x.text with
  | true, quote :: _ => ⟨x.kind, [quote, quote]⟩
  | _, _ => x

end PickIndent
