import PickIndent.Lexeme.Code
import PickIndent.Proofs.Text.Beginning
import PickIndent.Proofs.Unicode.Apart

/-!
# Cuts — which lexeme is cut off a text, and what it leaves

There are five ways to cut a lexeme off a text (`Lexeme.Cut`): a string literal, a comment, a quote that is
never closed, a semicolon that begins no comment, and everything else.  The lexemes of a text are cut off one
after the other (`lexed_scan`).  So nothing of the text is lost, a line feed lies in a string literal or ends
the cutting, and nothing follows a comment.
-/

namespace PickIndent

/-! ### String literals -/

/-- The quote of a string literal. -/
def LexemeKind.quote? : LexemeKind → Option Char
  | .doubleQuoted => some doubleQuote
  | .singleQuoted => some singleQuote
  | _ => none

def isQuote (c : Char) : Bool := c == doubleQuote || c == singleQuote

theorem isQuote_iff {c : Char} : isQuote c = true ↔ c = doubleQuote ∨ c = singleQuote := by
  simp [isQuote]

/-- What may stand between two quotes. The quote itself stands there only behind a backslash, and a backslash
takes the next character with it, which is no line feed. -/
inductive Inside (quote : Char) : Text → Prop
  | nil : Inside quote []
  | cons {c : Char} {t : Text} (hquote : c ≠ quote) (hescape : c ≠ '\\') (h : Inside quote t) :
      Inside quote (c :: t)
  | escape {c : Char} {t : Text} (hfeed : c ≠ '\n') (h : Inside quote t) : Inside quote ('\\' :: c :: t)

theorem LexemeKind.isQuote_of_quote? {kind : LexemeKind} {quote : Char} (h : kind.quote? = some quote) :
    isQuote quote = true := by
  cases kind <;> simp only [LexemeKind.quote?, Option.some.injEq, reduceCtorEq] at h <;> subst h <;> decide

theorem LexemeKind.isString_of_quote? {kind : LexemeKind} {quote : Char} (h : kind.quote? = some quote) :
    kind.isString = true := by
  cases kind <;> first | rfl | simp [LexemeKind.quote?] at h

theorem isQuote_backslash : isQuote '\\' = false := by decide

theorem closeString?_quote (quote : Char) (t : Text) :
    closeString? quote (quote :: t) = some ([quote], t) := by
  rw [closeString?.eq_def]
  simp only [if_true]

theorem closeString?_cons {quote c : Char} (hquote : c ≠ quote) (hescape : c ≠ '\\') (t : Text) :
    closeString? quote (c :: t) = (closeString? quote t).map fun p => (c :: p.1, p.2) := by
  rw [closeString?.eq_def]
  simp only [if_neg hquote, if_neg hescape]

theorem closeString?_escape {quote c : Char} (hquote : '\\' ≠ quote) (hfeed : c ≠ '\n') (t : Text) :
    closeString? quote ('\\' :: c :: t) = (closeString? quote t).map fun p => ('\\' :: c :: p.1, p.2) := by
  rw [closeString?.eq_def]
  simp only [if_neg hquote, if_true, if_neg hfeed]

theorem closeString?_inside {quote : Char} (hquote : isQuote quote = true) {inside : Text}
    (h : Inside quote inside) (rest : Text) :
    closeString? quote (inside ++ quote :: rest) = some (inside ++ [quote], rest) := by
  induction h with
  | nil => exact closeString?_quote quote rest
  | cons hne hescape _ ih =>
    rw [List.cons_append, closeString?_cons hne hescape, ih]
    rfl
  | escape hfeed _ ih =>
    have hne : '\\' ≠ quote := (ne_of_class hquote isQuote_backslash).symm
    rw [List.cons_append, List.cons_append, closeString?_escape hne hfeed, ih]
    rfl

/-- A literal that is closed has an inside. -/
theorem exists_inside {quote : Char} {t body rest : Text} (h : closeString? quote t = some (body, rest)) :
    ∃ inside, Inside quote inside ∧ body = inside ++ [quote] := by
  fun_induction closeString? quote t generalizing body rest with
  | case1 => simp at h
  | case2 t =>
    obtain ⟨rfl, rfl⟩ : [quote] = body ∧ t = rest := by simpa using h
    exact ⟨[], .nil, rfl⟩
  | case3 => simp at h
  | case4 => simp at h
  | case5 c u hfeed _ ih =>
    obtain ⟨p, hp, hq⟩ := Option.map_eq_some_iff.mp h
    obtain ⟨inside, hinside, hbody⟩ := ih hp
    obtain ⟨rfl, rfl⟩ : '\\' :: c :: p.1 = body ∧ p.2 = rest := by simpa using hq
    exact ⟨'\\' :: c :: inside, .escape hfeed hinside, by rw [hbody]; rfl⟩
  | case6 c t hne hescape ih =>
    obtain ⟨p, hp, hq⟩ := Option.map_eq_some_iff.mp h
    obtain ⟨inside, hinside, hbody⟩ := ih hp
    obtain ⟨rfl, rfl⟩ : c :: p.1 = body ∧ p.2 = rest := by simpa using hq
    exact ⟨c :: inside, .cons hne hescape hinside, by rw [hbody]; rfl⟩

/-! ### Comments -/

/-- A semicolon, spaces and tabs if desired, an asterisk, and what else stands on the line. -/
def IsComment (t : Text) : Prop :=
  ∃ gap more, (∀ c ∈ gap, c = ' ' ∨ c = '\t') ∧ '\n' ∉ more ∧ t = ';' :: gap ++ '*' :: more

theorem IsComment.not_mem {t : Text} (h : IsComment t) : '\n' ∉ t := by
  obtain ⟨gap, more, hgap, hmore, rfl⟩ := h
  have hnot : '\n' ∉ gap := fun hmem => by simpa using hgap _ hmem
  simp [hnot, hmore]

/-- What follows a semicolon that begins a comment. -/
def startsComment (t : Text) : Bool := (t.dropWhile fun c => c == ' ' || c == '\t').head? == some '*'

theorem closeComment?_eq (t : Text) :
    closeComment? t =
      if startsComment t then some (t.takeWhile (· != '\n'), t.dropWhile (· != '\n')) else none := by
  unfold closeComment? startsComment
  split
  next h => rw [h]; rfl
  next h =>
    rw [if_neg]
    intro hhead
    obtain ⟨u, hu⟩ := List.head?_eq_some_iff.mp (by simpa using hhead)
    exact h u hu

theorem startsComment_gap {gap : Text} (h : ∀ c ∈ gap, c = ' ' ∨ c = '\t') (t : Text) :
    startsComment (gap ++ t) = startsComment t := by
  rw [startsComment, startsComment, List.dropWhile_append_of_pos]
  simpa using h

theorem exists_gap_of_startsComment {t : Text} (h : startsComment t = true) :
    ∃ gap u, (∀ c ∈ gap, c = ' ' ∨ c = '\t') ∧ t = gap ++ '*' :: u := by
  obtain ⟨u, hu⟩ := List.head?_eq_some_iff.mp (by simpa [startsComment] using h)
  refine ⟨t.takeWhile fun c => c == ' ' || c == '\t', u, fun c hc => ?_, ?_⟩
  · simpa using List.mem_takeWhile_imp hc
  · rw [← hu, List.takeWhile_append_dropWhile]

theorem isComment_of_startsComment {t : Text} (h : startsComment t = true) :
    IsComment (';' :: t.takeWhile (· != '\n')) := by
  obtain ⟨gap, u, hgap, rfl⟩ := exists_gap_of_startsComment h
  refine ⟨gap, u.takeWhile (· != '\n'), hgap, fun hfeed => by simpa using List.mem_takeWhile_imp hfeed, ?_⟩
  rw [List.takeWhile_append_of_pos, List.takeWhile_cons_of_pos (by decide), List.cons_append]
  intro c hc
  rcases hgap c hc with rfl | rfl <;> decide

/-! ### One lexeme -/

/-- The character is copied as it is: it is neither a quote nor a semicolon. -/
def isPlain (c : Char) : Bool := !isQuote c && c != ';'

/-- The ways in which a lexeme is cut off in front of a text. -/
inductive Lexeme.Cut : Lexeme → Text → Prop
  | string {kind : LexemeKind} {quote : Char} {inside rest : Text} (hquote : kind.quote? = some quote)
      (h : Inside quote inside) : Cut ⟨kind, quote :: (inside ++ [quote])⟩ rest
  | comment {text rest : Text} (h : IsComment text) (hrest : startsWithOrEnds (· == '\n') rest = true) :
      Cut ⟨.comment, text⟩ rest
  | loneQuote {quote : Char} {rest : Text} (hquote : isQuote quote = true)
      (h : closeString? quote rest = none) : Cut ⟨.other, [quote]⟩ rest
  | semicolon {rest : Text} (h : startsComment rest = false) : Cut ⟨.other, [';']⟩ rest
  | plain {kind : LexemeKind} {c : Char} {t rest : Text} (hstring : kind.isString = false)
      (hcomment : kind ≠ .comment) (hplain : ∀ a ∈ c :: t, isPlain a = true) (hfeed : '\n' ∉ c :: t) :
      Cut ⟨kind, c :: t⟩ rest

theorem isPlain_eq {c : Char} :
    isPlain c = true ↔ c ≠ doubleQuote ∧ c ≠ singleQuote ∧ c ≠ ';' := by
  simp [isPlain, isQuote, and_assoc]

/-- A class of characters without quotes, semicolons and line feeds. -/
theorem plain_of_class {p : Char → Bool}
    (hp : p doubleQuote = false ∧ p singleQuote = false ∧ p ';' = false ∧ p '\n' = false) {t : Text}
    (h : ∀ a ∈ t, p a = true) : (∀ a ∈ t, isPlain a = true) ∧ '\n' ∉ t := by
  have hne : ∀ a ∈ t, ∀ b, p b = false → a ≠ b := fun a ha b hb => ne_of_class (h a ha) hb
  refine ⟨fun a ha => isPlain_eq.mpr ⟨hne a ha _ hp.1, hne a ha _ hp.2.1, hne a ha _ hp.2.2.1⟩, ?_⟩
  exact fun hfeed => hne _ hfeed _ hp.2.2.2 rfl

theorem splitNumber_digit {isDigit : Char → Bool} {t : Text} {a : Char} (h : a ∈ (splitNumber isDigit t).1) :
    isDigit a = true ∨ a = '.' := by
  unfold splitNumber splitFraction at h
  rcases List.mem_append.mp h with h | h
  · exact Or.inl (List.mem_takeWhile_imp h)
  split at h
  · split at h
    · simp at h
    · rcases List.mem_cons.mp h with rfl | h
      · exact Or.inr rfl
      · exact Or.inl (List.mem_takeWhile_imp h)
  · simp at h

/-- A quote begins a literal if it is closed. -/
theorem cut_quote {kind : LexemeKind} {quote : Char} (hquote : kind.quote? = some quote) (t : Text)
    {r : Lexeme × Text}
    (hr : r = match closeString? quote t with
      | some (body, rest) => (⟨kind, quote :: body⟩, rest)
      | none => (⟨.other, [quote]⟩, t)) : r.1.Cut r.2 := by
  subst hr
  split
  next body rest hclose =>
    obtain ⟨inside, hinside, rfl⟩ := exists_inside hclose
    exact .string hquote hinside
  next hclose => exact .loneQuote (LexemeKind.isQuote_of_quote? hquote) hclose

theorem cut_semicolon (t : Text) {r : Lexeme × Text}
    (hr : r = match closeComment? t with
      | some (body, rest) => (⟨.comment, ';' :: body⟩, rest)
      | none => (⟨.other, [';']⟩, t)) : r.1.Cut r.2 := by
  subst hr
  rw [closeComment?_eq]
  cases hstart : startsComment t with
  | false => exact .semicolon hstart
  | true =>
    exact .comment (isComment_of_startsComment hstart)
      (startsWithOrEnds_mono (fun a ha => by simpa using ha) (startsWithOrEnds_dropWhile (· != '\n') t))

theorem cut_class {p : Char → Bool}
    (hp : p doubleQuote = false ∧ p singleQuote = false ∧ p ';' = false ∧ p '\n' = false) {kind : LexemeKind}
    (hstring : kind.isString = false) (hcomment : kind ≠ .comment) {c : Char} {t : Text}
    (h : ∀ a ∈ c :: t, p a = true) (rest : Text) : Lexeme.Cut ⟨kind, c :: t⟩ rest :=
  .plain hstring hcomment (plain_of_class hp h).1 (plain_of_class hp h).2

theorem isWordPart_of_isWordStart {c : Char} (h : isWordStart c = true) : isWordPart c = true := by
  rcases Bool.or_eq_true_iff.mp h with h | h
  · simp [isWordPart, Char.isAlphanum, h]
  · simp [isWordPart, h]

/-- **Every lexeme is cut off in one of the five ways.** -/
theorem nextLexeme_cut {c : Char} (hc : c ≠ '\n') (t : Text) : (nextLexeme c t).1.Cut (nextLexeme c t).2 := by
  have takeWhile_class : ∀ {p : Char → Bool}, p c = true → ∀ a ∈ c :: t.takeWhile p, p a = true := by
    intro p hpc a ha
    rcases List.mem_cons.mp ha with rfl | ha
    · exact hpc
    · exact List.mem_takeWhile_imp ha
  unfold nextLexeme
  by_cases hdouble : c = doubleQuote
  · rw [if_pos hdouble]
    subst hdouble
    exact cut_quote rfl t rfl
  rw [if_neg hdouble]
  by_cases hsingle : c = singleQuote
  · rw [if_pos hsingle]
    subst hsingle
    exact cut_quote rfl t rfl
  rw [if_neg hsingle]
  by_cases hsemicolon : c = ';'
  · rw [if_pos hsemicolon]
    subst hsemicolon
    exact cut_semicolon t rfl
  rw [if_neg hsemicolon]
  by_cases hword : isWordStart c = true
  · rw [if_pos hword]
    have hall := takeWhile_class (isWordPart_of_isWordStart hword)
    exact cut_class (p := isWordPart) (by decide) rfl (by decide) hall _
  rw [if_neg hword]
  by_cases hdigit : c.isDigit = true
  · rw [if_pos hdigit]
    refine cut_class (p := fun a => a.isDigit || a == '.') (by decide) rfl (by decide) (fun a ha => ?_) _
    rcases List.mem_cons.mp ha with rfl | ha
    · simp [hdigit]
    · simpa using splitNumber_digit ha
  rw [if_neg hdigit]
  by_cases hgap : isGap c = true
  · rw [if_pos hgap]
    exact cut_class (p := isGap) (by decide) rfl (by decide) (takeWhile_class hgap) _
  rw [if_neg hgap]
  exact .plain rfl (by decide) (by simp [isPlain_eq, hdouble, hsingle, hsemicolon]) (by simpa using hc.symm)

/-! ### All lexemes -/

/-- The lexemes `xs` are cut off one after the other in front of `rest`, where no more can be cut off. -/
inductive Lexed (rest : Text) : List Lexeme → Prop
  | nil (h : startsWithOrEnds (· == '\n') rest = true) : Lexed rest []
  | cons {x : Lexeme} {xs : List Lexeme} (hx : x.Cut (spell xs ++ rest)) (h : Lexed rest xs) :
      Lexed rest (x :: xs)

theorem spell_cons (x : Lexeme) (xs : List Lexeme) : spell (x :: xs) = x.text ++ spell xs := rfl

/-- **Lexemes are cut off one after the other, and nothing is lost.** -/
theorem lexed_scan (t : Text) : Lexed (scan t).2 (scan t).1 ∧ spell (scan t).1 ++ (scan t).2 = t := by
  fun_induction scan t with
  | case1 => exact ⟨.nil rfl, rfl⟩
  | case2 t => exact ⟨.nil rfl, rfl⟩
  | case3 c t hc later ih =>
    have hcut := nextLexeme_cut hc t
    rw [← ih.2] at hcut
    refine ⟨.cons hcut ih.1, ?_⟩
    rw [spell_cons, List.append_assoc, ih.2, nextLexeme_append]

/-- What a text with these lexemes is like. -/
theorem lex_eq_ok {t : Text} {xs : List Lexeme} (h : lex t = .ok xs) : Lexed [] xs ∧ spell xs = t := by
  obtain ⟨hlexed, hspell⟩ := lexed_scan t
  unfold lex at h
  rcases hscan : scan t with ⟨ys, rest⟩
  rw [hscan] at h hlexed hspell
  cases rest with
  | nil =>
    obtain rfl : ys = xs := by simpa using h
    exact ⟨hlexed, by simpa using hspell⟩
  | cons c rest => simp at h

/-- Cutting stops at a line feed or at the end. -/
theorem Lexed.stops {xs : List Lexeme} {rest : Text} (h : Lexed rest xs) :
    startsWithOrEnds (· == '\n') rest = true := by
  induction h with
  | nil h => exact h
  | cons _ _ ih => exact ih

theorem exists_lex {t : Text} (h : '\n' ∉ t) : ∃ xs, lex t = .ok xs := by
  obtain ⟨hlexed, hspell⟩ := lexed_scan t
  rcases hscan : scan t with ⟨xs, rest⟩
  rw [hscan] at hlexed hspell
  cases rest with
  | nil => exact ⟨xs, by rw [lex, hscan]⟩
  | cons c rest =>
    obtain rfl : c = '\n' := by simpa [startsWithOrEnds] using hlexed.stops
    exact absurd (by rw [← hspell]; simp) h

theorem Lexeme.Cut.exists_cons {x : Lexeme} {rest : Text} (h : x.Cut rest) :
    ∃ c t, x.text = c :: t ∧ c ≠ '\n' := by
  have quote_ne : ∀ {quote : Char}, isQuote quote = true → quote ≠ '\n' :=
    fun hquote => ne_of_class hquote (by decide)
  cases h with
  | string hquote _ => exact ⟨_, _, rfl, quote_ne (LexemeKind.isQuote_of_quote? hquote)⟩
  | comment h _ =>
    obtain ⟨gap, more, -, -, rfl⟩ := h
    exact ⟨_, _, rfl, by decide⟩
  | loneQuote hquote _ => exact ⟨_, _, rfl, quote_ne hquote⟩
  | semicolon _ => exact ⟨_, _, rfl, by decide⟩
  | @plain _ c t _ _ _ _ hfeed => exact ⟨c, t, rfl, fun hc => hfeed (by simp [hc])⟩

/-- Only a string literal runs over a line feed. -/
theorem Lexeme.Cut.isString_of_feed {x : Lexeme} {rest : Text} (h : x.Cut rest) (hfeed : '\n' ∈ x.text) :
    x.kind.isString = true := by
  cases h with
  | string hquote _ => exact LexemeKind.isString_of_quote? hquote
  | comment h _ => exact absurd hfeed h.not_mem
  | loneQuote hquote _ =>
    obtain rfl : '\n' = _ := by simpa using hfeed
    exact absurd hquote (by decide)
  | semicolon _ => simp at hfeed
  | plain _ _ _ hnot => exact absurd hfeed hnot

/-- A comment takes everything up to a line feed or the end. -/
theorem Lexeme.Cut.of_comment {x : Lexeme} {rest : Text} (h : x.Cut rest) (hkind : x.kind = .comment) :
    IsComment x.text ∧ startsWithOrEnds (· == '\n') rest = true := by
  cases h with
  | string hquote _ =>
    obtain rfl : _ = LexemeKind.comment := hkind
    simp [LexemeKind.quote?] at hquote
  | comment h hrest => exact ⟨h, hrest⟩
  | loneQuote _ _ => simp at hkind
  | semicolon _ => simp at hkind
  | plain _ hcomment _ _ => exact absurd hkind hcomment

namespace Lexed

variable {xs : List Lexeme} {rest : Text}

theorem text_ne_nil (h : Lexed rest xs) : ∀ x ∈ xs, x.text ≠ [] := by
  induction h with
  | nil => simp
  | cons hx _ ih =>
    obtain ⟨c, t, htext, -⟩ := hx.exists_cons
    simpa [htext] using ih

theorem isString_of_feed (h : Lexed rest xs) : ∀ x ∈ xs, '\n' ∈ x.text → x.kind.isString = true := by
  induction h with
  | nil => simp
  | cons hx _ ih =>
    intro y hy
    rcases List.mem_cons.mp hy with rfl | hy
    · exact hx.isString_of_feed
    · exact ih y hy

/-- No lexeme follows a comment. -/
theorem not_comment_of_mem_dropLast (h : Lexed rest xs) : ∀ x ∈ xs.dropLast, x.kind ≠ .comment := by
  induction h with
  | nil => simp
  | @cons x xs hx hlater ih =>
    cases hlater with
    | nil => simp
    | cons hy _ =>
      rw [List.dropLast_cons_cons, List.forall_mem_cons]
      refine ⟨fun hkind => ?_, ih⟩
      obtain ⟨c, t, htext, hc⟩ := hy.exists_cons
      have hrest := (hx.of_comment hkind).2
      exact hc (by simpa [spell_cons, htext, startsWithOrEnds] using hrest)

end Lexed

end PickIndent
