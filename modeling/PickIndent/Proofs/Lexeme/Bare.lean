import PickIndent.Proofs.Lexeme.Cut
import PickIndent.Proofs.Text.Trim

/-!
# Bare text — the code of a text in one pass

`bare` goes through a text character by character, empties the string literals and stops at the comment.  It
knows of no lexemes, and for a text without line feeds it gives the same code as lexing (`codeText_eq`).  So
what is put into a text shows in its code only where a quote or a semicolon is met: plain characters are
copied (`bare_plain_append`), and blanks around a text stay around its code (`trim_bare_trim`).
-/

namespace PickIndent

/-! ### Unclosed literals and comments in a longer text -/

theorem closeString?_eq_none {quote : Char} {s : Text} (h : quote ∉ s) : closeString? quote s = none := by
  rw [Option.eq_none_iff_forall_ne_some]
  rintro ⟨body, rest⟩ hclose
  obtain ⟨inside, -, rfl⟩ := exists_inside hclose
  apply h
  rw [← closeString?_append hclose]
  simp

/-- A text without the quote, put behind another, closes no literal. -/
theorem closeString?_append_right {quote : Char} {s : Text} (h : quote ∉ s) (t : Text) :
    closeString? quote (t ++ s) = (closeString? quote t).map fun p => (p.1, p.2 ++ s) := by
  have mem_of_suffix : ∀ {u : Text}, u <:+ s → quote ∉ u := fun hu hmem => h (hu.subset hmem)
  fun_induction closeString? quote t with
  | case1 => exact closeString?_eq_none h
  | case2 t => rw [List.cons_append, closeString?_quote]; rfl
  | case3 hquote =>
    -- a backslash at the end takes the first character of what follows
    rw [List.singleton_append, closeString?.eq_def]
    cases s with
    | nil => simp [hquote]
    | cons c s =>
      have hs := closeString?_eq_none (mem_of_suffix (List.suffix_cons c s))
      by_cases hfeed : c = '\n' <;> simp [hquote, hfeed, hs]
  | case4 u hquote =>
    rw [List.cons_append, List.cons_append, closeString?.eq_def]
    simp [hquote]
  | case5 c u hfeed hquote ih =>
    rw [List.cons_append, List.cons_append, closeString?_escape hquote hfeed, ih]
    cases closeString? quote u <;> rfl
  | case6 c t hquote hescape ih =>
    rw [List.cons_append, closeString?_cons hquote hescape, ih]
    cases closeString? quote t <;> rfl

/-- A text without an asterisk, put behind another, begins no comment. -/
theorem startsComment_append_right {s : Text} (h : '*' ∉ s) (t : Text) :
    startsComment (t ++ s) = startsComment t := by
  unfold startsComment
  rw [List.dropWhile_append]
  split
  next hnil =>
    have hs : (s.dropWhile fun c => c == ' ' || c == '\t').head? ≠ some '*' := by
      intro hhead
      exact h ((List.dropWhile_suffix _).subset (List.mem_of_mem_head? hhead))
    rw [List.isEmpty_iff.mp hnil]
    simpa using hs
  next hne =>
    rw [List.head?_append_of_ne_nil]
    simpa using hne

/-- Behind any other character than a space or a tab no comment begins. -/
theorem startsComment_append_left {s : Text} (h : ¬∀ c ∈ s, c = ' ' ∨ c = '\t') (t : Text) :
    startsComment (s ++ t) = startsComment s := by
  have hne : (s.dropWhile fun c => c == ' ' || c == '\t') ≠ [] := by
    simpa [List.dropWhile_eq_nil_iff] using h
  rw [startsComment, startsComment, List.dropWhile_append, if_neg (by simpa using hne),
    List.head?_append_of_ne_nil _ hne]

theorem startsComment_quote {quote : Char} (hquote : isQuote quote = true) (t : Text) :
    startsComment (quote :: t) = false := by
  rcases isQuote_iff.mp hquote with rfl | rfl <;> rfl

/-! ### One pass -/

/-- The text up to its comment, with string literals emptied. -/
def bare : Text → Text
  | [] => []
  | c :: t =>
    if isQuote c then
      match _h : closeString? c t with
      | some (_, rest) => c :: c :: bare rest
      | none => c :: bare t
    else if c = ';' ∧ startsComment t then []
    else c :: bare t
termination_by t => t.length
decreasing_by
  · have hlength := congrArg List.length (closeString?_append _h)
    simp only [List.length_append] at hlength
    simp only [List.length_cons]
    omega
  · simp
  · simp

@[simp] theorem bare_nil : bare [] = [] := by rw [bare]

theorem bare_closed {quote : Char} {t body rest : Text} (hquote : isQuote quote = true)
    (h : closeString? quote t = some (body, rest)) : bare (quote :: t) = quote :: quote :: bare rest := by
  rw [bare, if_pos hquote]
  split
  next hclose =>
    rw [h] at hclose
    obtain ⟨-, rfl⟩ := Prod.mk.inj (Option.some.inj hclose)
    rfl
  next hclose => simp [h] at hclose

theorem bare_loneQuote {quote : Char} {t : Text} (hquote : isQuote quote = true)
    (h : closeString? quote t = none) : bare (quote :: t) = quote :: bare t := by
  rw [bare, if_pos hquote]
  split
  next hclose => simp [h] at hclose
  next => rfl

theorem bare_comment {t : Text} (h : startsComment t = true) : bare (';' :: t) = [] := by
  rw [bare, if_neg (by decide), if_pos ⟨rfl, h⟩]

theorem bare_semicolon {t : Text} (h : startsComment t = false) : bare (';' :: t) = ';' :: bare t := by
  rw [bare, if_neg (by decide), if_neg (by simp [h])]

theorem bare_plain {c : Char} (hc : isPlain c = true) (t : Text) : bare (c :: t) = c :: bare t := by
  obtain ⟨hdouble, hsingle, hsemicolon⟩ := isPlain_eq.mp hc
  rw [bare, if_neg (by simp [isQuote, hdouble, hsingle]), if_neg (by simp [hsemicolon])]

/-! ### Parts of a text -/

theorem bare_plain_append {p : Text} (hp : ∀ c ∈ p, isPlain c = true) (t : Text) :
    bare (p ++ t) = p ++ bare t := by
  induction p with
  | nil => rfl
  | cons c p ih =>
    rw [List.cons_append, bare_plain (hp c (by simp)), ih fun a ha => hp a (List.mem_cons_of_mem _ ha)]
    rfl

theorem bare_literal {quote : Char} (hquote : isQuote quote = true) {inside : Text}
    (h : Inside quote inside) (t : Text) :
    bare (quote :: (inside ++ [quote]) ++ t) = quote :: quote :: bare t := by
  have hclose := closeString?_inside hquote h t
  rw [List.cons_append, List.append_assoc, List.singleton_append, bare_closed hquote hclose]

theorem bare_isComment {comment : Text} (h : IsComment comment) (t : Text) : bare (comment ++ t) = [] := by
  obtain ⟨gap, more, hgap, -, rfl⟩ := h
  have hstart : startsComment (gap ++ '*' :: (more ++ t)) = true := startsComment_gap hgap _
  have htext : ';' :: gap ++ '*' :: more ++ t = ';' :: (gap ++ '*' :: (more ++ t)) := by simp
  rw [htext, bare_comment hstart]

/-- **Plain characters at the beginning of the code are those of the text.** -/
theorem exists_of_bare_eq_append {p : Text} (hp : ∀ c ∈ p, isPlain c = true) {t s : Text}
    (h : bare t = p ++ s) : ∃ u, t = p ++ u ∧ bare u = s := by
  induction p generalizing t with
  | nil => exact ⟨t, rfl, h⟩
  | cons a p ih =>
    have ha := isPlain_eq.mp (hp a (by simp))
    cases t with
    | nil => simp at h
    | cons c t =>
      by_cases hc : isPlain c = true
      · rw [bare_plain hc, List.cons_append] at h
        obtain ⟨rfl, hlater⟩ := List.cons.inj h
        obtain ⟨u, rfl, hu⟩ := ih (fun b hb => hp b (List.mem_cons_of_mem _ hb)) hlater
        exact ⟨u, rfl, hu⟩
      · -- a quote or a semicolon shows in the code or ends it
        exfalso
        rw [bare] at h
        split at h
        next hquote =>
          have hhead : c = a := by
            split at h <;> exact (List.cons.inj h).1
          subst hhead
          simp [isQuote, ha.1, ha.2.1] at hquote
        next hquote =>
          split at h
          · simp at h
          · obtain rfl := (List.cons.inj h).1
            exact hc (isPlain_eq.mpr ha)

/-! ### Blanks around a text -/

theorem isPlain_of_isBlank {c : Char} (hc : isBlank c = true) : isPlain c = true := by
  refine isPlain_eq.mpr ⟨?_, ?_, ?_⟩ <;> rintro rfl <;> exact absurd hc (by decide)

theorem isBlank_of_isQuote {c : Char} (hc : isQuote c = true) : isBlank c = false := by
  rcases Bool.or_eq_true_iff.mp hc with h | h <;> rw [beq_iff_eq.mp h] <;> decide

theorem plain_of_isBlankText {s : Text} (hs : isBlankText s = true) : ∀ c ∈ s, isPlain c = true :=
  fun c hc => isPlain_of_isBlank (isBlankText_iff.mp hs c hc)

theorem not_mem_of_isBlankText {s : Text} (hs : isBlankText s = true) {c : Char} (hc : isBlank c = false) :
    c ∉ s := by
  intro hmem
  rw [isBlankText_iff.mp hs c hmem] at hc
  exact Bool.noConfusion hc

/-- Blanks behind a text stay behind its code, or belong to the comment. -/
theorem exists_bare_append {s : Text} (hs : isBlankText s = true) (t : Text) :
    ∃ r, isBlankText r = true ∧ bare (t ++ s) = bare t ++ r := by
  fun_induction bare t with
  | case1 =>
    have hplain := bare_plain_append (plain_of_isBlankText hs) []
    exact ⟨s, hs, by simpa using hplain⟩
  | case2 c t hquote body rest hclose ih =>
    obtain ⟨r, hr, ih⟩ := ih
    have hnot : c ∉ s := not_mem_of_isBlankText hs (isBlank_of_isQuote hquote)
    refine ⟨r, hr, ?_⟩
    rw [List.cons_append, bare_closed hquote (by rw [closeString?_append_right hnot, hclose]; rfl), ih]
    rfl
  | case3 c t hquote hclose ih =>
    obtain ⟨r, hr, ih⟩ := ih
    have hnot : c ∉ s := not_mem_of_isBlankText hs (isBlank_of_isQuote hquote)
    refine ⟨r, hr, ?_⟩
    rw [List.cons_append, bare_loneQuote hquote (by rw [closeString?_append_right hnot, hclose]; rfl), ih]
    rfl
  | case4 c t hquote hcomment =>
    obtain ⟨rfl, hstart⟩ := hcomment
    have hasterisk : '*' ∉ s := not_mem_of_isBlankText hs (by decide)
    rw [← startsComment_append_right hasterisk t] at hstart
    exact ⟨[], rfl, by rw [List.cons_append, bare_comment hstart]; rfl⟩
  | case5 c t hquote hcomment ih =>
    obtain ⟨r, hr, ih⟩ := ih
    refine ⟨r, hr, ?_⟩
    by_cases hsemicolon : c = ';'
    · subst hsemicolon
      have hasterisk : '*' ∉ s := not_mem_of_isBlankText hs (by decide)
      have hstart : startsComment t = false := by simpa using hcomment
      rw [← startsComment_append_right hasterisk t] at hstart
      rw [List.cons_append, bare_semicolon hstart, ih]
      rfl
    · have hplain : isPlain c = true := by simpa [isPlain, hsemicolon] using hquote
      rw [List.cons_append, bare_plain hplain, ih]
      rfl

theorem trim_bare_append {s u : Text} (hs : isBlankText s = true) (hu : isBlankText u = true) (t : Text) :
    trim (bare (s ++ t ++ u)) = trim (bare t) := by
  obtain ⟨r, hr, hbare⟩ := exists_bare_append hu t
  rw [List.append_assoc, bare_plain_append (plain_of_isBlankText hs), hbare, trim_append_of_blank_left hs,
    trim_append_of_blank_right hr]

/-- **The code of a trimmed text is the code of the text**, up to blanks around it. -/
theorem trim_bare_trim (t : Text) : trim (bare (trim t)) = trim (bare t) := by
  obtain ⟨s, u, hs, hu, ht⟩ := exists_append_trim_append t
  conv_rhs => rw [ht]
  rw [trim_bare_append hs hu]

/-! ### The code by lexemes -/

theorem Lexeme.Cut.bare_append {x : Lexeme} {rest : Text} (h : x.Cut rest) (hkind : x.kind ≠ .comment) :
    bare (x.text ++ rest) = x.emptied.text ++ bare rest := by
  cases h with
  | string hquote hinside =>
    rw [bare_literal (LexemeKind.isQuote_of_quote? hquote) hinside]
    simp [Lexeme.emptied, LexemeKind.isString_of_quote? hquote]
  | comment _ _ => exact absurd rfl hkind
  | loneQuote hquote hclose => exact bare_loneQuote hquote hclose
  | semicolon hstart => exact bare_semicolon hstart
  | plain hstring _ hplain _ =>
    rw [bare_plain_append hplain]
    simp [Lexeme.emptied, hstring]

theorem beforeComment_cons {x : Lexeme} (h : x.kind ≠ .comment) (xs : List Lexeme) :
    beforeComment (x :: xs) = x :: beforeComment xs :=
  List.takeWhile_cons_of_pos (by simpa using h)

theorem beforeComment_cons_comment {x : Lexeme} (h : x.kind = .comment) (xs : List Lexeme) :
    beforeComment (x :: xs) = [] :=
  List.takeWhile_cons_of_neg (by simp [h])

theorem Lexed.bare_spell {xs : List Lexeme} (h : Lexed [] xs) :
    bare (spell xs) = spell ((beforeComment xs).map Lexeme.emptied) := by
  induction h with
  | nil => rw [spell, List.flatMap_nil, bare_nil]; rfl
  | @cons x xs hx _ ih =>
    rw [List.append_nil] at hx
    rw [spell_cons]
    by_cases hkind : x.kind = .comment
    · rw [bare_isComment (hx.of_comment hkind).1, beforeComment_cons_comment hkind]
      rfl
    · rw [hx.bare_append hkind, ih, beforeComment_cons hkind, List.map_cons, spell_cons]

/-- A lexeme is cut off where it was when no quote and no asterisk is put behind the text. -/
theorem Lexeme.Cut.append {x : Lexeme} {rest tail : Text} (h : x.Cut rest) (hkind : x.kind ≠ .comment)
    (hquote : ∀ c ∈ tail, isQuote c = false) (hasterisk : '*' ∉ tail) : x.Cut (rest ++ tail) := by
  cases h with
  | string hopen hinside => exact .string hopen hinside
  | comment _ _ => exact absurd rfl hkind
  | @loneQuote quote _ hopen hclose =>
    have hnot : quote ∉ tail := by
      intro hmem
      rw [hquote quote hmem] at hopen
      exact Bool.noConfusion hopen
    exact .loneQuote hopen (by rw [closeString?_append_right hnot, hclose]; rfl)
  | semicolon hstart => exact .semicolon (by rwa [startsComment_append_right hasterisk])
  | plain hstring hcomment hplain hfeed => exact .plain hstring hcomment hplain hfeed

/-- **What is put behind a text without a comment is put behind its bare text**, if there are no quotes and no
asterisks in it. -/
theorem Lexed.bare_append {xs : List Lexeme} (h : Lexed [] xs) (hcomment : ∀ x ∈ xs, x.kind ≠ .comment) {tail : Text}
    (hquote : ∀ c ∈ tail, isQuote c = false) (hasterisk : '*' ∉ tail) :
    bare (spell xs ++ tail) = bare (spell xs) ++ bare tail := by
  induction h with
  | nil =>
    rw [spell, List.flatMap_nil, bare_nil]
    rfl
  | @cons x xs hx _ ih =>
    rw [List.append_nil] at hx
    obtain ⟨hkind, hlater⟩ := List.forall_mem_cons.mp hcomment
    rw [spell_cons, List.append_assoc, (hx.append hkind hquote hasterisk).bare_append hkind, ih hlater,
      hx.bare_append hkind, List.append_assoc]

/-- **The code of a text without line feeds, in one pass.** -/
theorem codeText_eq {t : Text} (h : '\n' ∉ t) : codeText t = .ok (trim (bare t)) := by
  obtain ⟨xs, hxs⟩ := exists_lex h
  obtain ⟨hlexed, hspell⟩ := lex_eq_ok hxs
  rw [codeText, hxs, ← hspell, hlexed.bare_spell]
  rfl

end PickIndent
