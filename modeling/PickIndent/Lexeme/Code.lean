import PickIndent.Lexeme.Scan

/-!
# The code of a line

What keyword matching may look at: the lexemes before the trailing comment, with string literals
emptied, trimmed.
-/

namespace PickIndent

/-- The lexemes before the comment. -/
def beforeComment (xs : List Lexeme) : List Lexeme := xs.takeWhile (·.kind != .comment)

def emptyStrings (t : Text) : Except StrayNewline Text :=
  (lex t).map fun xs => spell (xs.map Lexeme.emptied)

def trailingComment? (t : Text) : Except StrayNewline (Option Text) :=
  (lex t).map fun xs => (xs.find? (·.kind == .comment)).map Lexeme.text

def dropComment (t : Text) : Except StrayNewline Text :=
  (lex t).map fun xs => trimEnd (spell (beforeComment xs))

def codeText (t : Text) : Except StrayNewline Text :=
  (lex t).map fun xs => trim (spell ((beforeComment xs).map Lexeme.emptied))

end PickIndent
