import PickIndent.Lexeme.Basic

/-!
# Cutting a text into lexemes

A lexeme is recognised by its first character: a quote begins a string literal if the literal is
closed, a semicolon a comment if an asterisk follows it, a letter or underscore a word, a digit a
number, a space, tab or form feed a gap. Any other character stands alone, and so do a quote that
is never closed and a semicolon that begins no comment. Letters, digits and gaps are those of
ASCII.

Only a string literal may run over a line feed. Elsewhere a line feed belongs to no lexeme, and
`lex` reports what stood before it.
-/

namespace PickIndent

def doubleQuote : Char := '\x22'

def singleQuote : Char := '\x27'

def isWordStart (c : Char) : Bool := c.isAlpha || c == '_'

def isWordPart (c : Char) : Bool := c.isAlphanum || c == '_' || c == '.' || c == '$' || c == '%'

def isGap (c : Char) : Bool := c == ' ' || c == '\t' || c == '\x0c'

/-! ### The longer lexemes -/

/-- The rest of a string literal up to its closing quote, and what follows. A backslash takes the
next character with it, which must not be a line feed. -/
def closeString? (quote : Char) : Text → Option (Text × Text)
  | [] => none
  | c :: t =>
    if c = quote then some ([c], t)
    else if c = '\\' then
      match t with
      | [] => none
      | d :: u => if d = '\n' then none else (closeString? quote u).map fun p => (c :: d :: p.1, p.2)
    else (closeString? quote t).map fun p => (c :: p.1, p.2)

/-- The rest of a comment after its semicolon, and what follows: spaces and tabs, an asterisk, and
everything else on the line. -/
def closeComment? (t : Text) : Option (Text × Text) :=
  match t.dropWhile fun c => c == ' ' || c == '\t' with
  | '*' :: _ => some (t.takeWhile (· != '\n'), t.dropWhile (· != '\n'))
  | _ => none

/-- The fraction at the beginning of a text, and what follows: a point with digits after it, or
nothing. -/
def splitFraction (isDigit : Char → Bool) (t : Text) : Text × Text :=
  match t with
  | '.' :: u => if startsWithOrEnds (!isDigit ·) u then ([], t)
    else ('.' :: u.takeWhile isDigit, u.dropWhile isDigit)
  | _ => ([], t)

/-- The rest of a number after its first digit, and what follows. -/
def splitNumber (isDigit : Char → Bool) (t : Text) : Text × Text :=
  let fraction := splitFraction isDigit (t.dropWhile isDigit)
  (t.takeWhile isDigit ++ fraction.1, fraction.2)

/-! ### One lexeme -/

/-- The lexeme that begins with the character `c`, which is no line feed, and what follows it. -/
def nextLexeme (c : Char) (t : Text) : Lexeme × Text :=
  if c = doubleQuote then
    match closeString? doubleQuote t with
    | some (body, rest) => (⟨.doubleQuoted, c :: body⟩, rest)
    | none => (⟨.other, [c]⟩, t)
  else if c = singleQuote then
    match closeString? singleQuote t with
    | some (body, rest) => (⟨.singleQuoted, c :: body⟩, rest)
    | none => (⟨.other, [c]⟩, t)
  else if c = ';' then
    match closeComment? t with
    | some (body, rest) => (⟨.comment, c :: body⟩, rest)
    | none => (⟨.other, [c]⟩, t)
  else if isWordStart c then (⟨.word, c :: t.takeWhile isWordPart⟩, t.dropWhile isWordPart)
  else if c.isDigit then (⟨.number, c :: (splitNumber Char.isDigit t).1⟩, (splitNumber Char.isDigit t).2)
  else if isGap c then (⟨.gap, c :: t.takeWhile isGap⟩, t.dropWhile isGap)
  else (⟨.other, [c]⟩, t)

/-! ### Nothing is lost -/

theorem closeString?_append {quote : Char} {t body rest : Text}
    (h : closeString? quote t = some (body, rest)) : body ++ rest = t := by
  fun_induction closeString? quote t generalizing body rest with
  | case1 => simp at h
  | case2 t => simp only [Option.some.injEq, Prod.mk.injEq] at h; simp [← h.1, ← h.2]
  | case3 => simp at h
  | case4 => simp at h
  | case5 _ _ _ _ ih =>
    obtain ⟨p, hp, hq⟩ := Option.map_eq_some_iff.1 h
    simp only [Prod.mk.injEq] at hq
    simp [← hq.1, ← hq.2, ih hp]
  | case6 _ _ _ _ ih =>
    obtain ⟨p, hp, hq⟩ := Option.map_eq_some_iff.1 h
    simp only [Prod.mk.injEq] at hq
    simp [← hq.1, ← hq.2, ih hp]

theorem closeComment?_append {t body rest : Text} (h : closeComment? t = some (body, rest)) :
    body ++ rest = t := by
  unfold closeComment? at h
  split at h
  · simp only [Option.some.injEq, Prod.mk.injEq] at h
    rw [← h.1, ← h.2, List.takeWhile_append_dropWhile]
  · simp at h

theorem splitFraction_append (isDigit : Char → Bool) (t : Text) :
    (splitFraction isDigit t).1 ++ (splitFraction isDigit t).2 = t := by
  unfold splitFraction
  split
  · split <;> simp
  · rfl

theorem splitNumber_append (isDigit : Char → Bool) (t : Text) :
    (splitNumber isDigit t).1 ++ (splitNumber isDigit t).2 = t := by
  simp [splitNumber, splitFraction_append]

theorem nextLexeme_append (c : Char) (t : Text) :
    (nextLexeme c t).1.text ++ (nextLexeme c t).2 = c :: t := by
  grind [nextLexeme, closeString?_append, closeComment?_append, splitNumber_append,
    List.takeWhile_append_dropWhile]

theorem nextLexeme_text_ne_nil (c : Char) (t : Text) : (nextLexeme c t).1.text ≠ [] := by
  unfold nextLexeme
  repeat' split
  all_goals simp

theorem nextLexeme_rest_length_le (c : Char) (t : Text) : (nextLexeme c t).2.length ≤ t.length := by
  have h := congrArg List.length (nextLexeme_append c t)
  have h0 := List.length_pos_iff.2 (nextLexeme_text_ne_nil c t)
  simp only [List.length_append, List.length_cons] at h
  omega

/-! ### All lexemes -/

/-- The lexemes at the beginning of a text, and what is left from the first line feed outside a
string literal on. -/
def scan : Text → List Lexeme × Text
  | [] => ([], [])
  | c :: t =>
    if c = '\n' then ([], c :: t)
    else
      let later := scan (nextLexeme c t).2
      ((nextLexeme c t).1 :: later.1, later.2)
termination_by t => t.length
decreasing_by exact Nat.lt_succ_of_le (nextLexeme_rest_length_le c t)

/-- A line feed outside a string literal. -/
structure StrayNewline where
  /-- What stands before the line feed. -/
  before : Text
  deriving DecidableEq, Repr

namespace StrayNewline

def offset (e : StrayNewline) : Nat := e.before.length

/-- Lines count from one. -/
def line (e : StrayNewline) : Nat := e.before.count '\n' + 1

/-- Columns count from one. -/
def column (e : StrayNewline) : Nat := (e.before.reverse.takeWhile (· != '\n')).length + 1

end StrayNewline

/-- All lexemes of a text, if every line feed lies in a string literal. -/
def lex (t : Text) : Except StrayNewline (List Lexeme) :=
  match scan t with
  | (xs, []) => .ok xs
  | (xs, _ :: _) => .error ⟨spell xs⟩

end PickIndent
