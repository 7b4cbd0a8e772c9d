import PickIndent.Proofs.Classification.Bare

/-!
# Rewording — string contents and comments do not matter

`Reworded` relates a line to those that differ from it in what stands inside its string literals and in its
comment.  The lexemes before the comment keep their places (`Refilled.cut`), and an emptied literal shows
nothing of what it held, so the reworded line has the bare text of the line (`bare_refilled`).  With it the line
keeps its label and does to the nesting what it did (`classify_reworded`).
-/

namespace PickIndent

/-! ### Literals with another inside -/

/-- A lexeme, or for a string literal one with the same quotes and something else inside them. -/
inductive Refilled : Lexeme → Lexeme → Prop
  | same (x : Lexeme) : Refilled x x
  | string {kind : LexemeKind} {quote : Char} {text inside : Text} (hquote : kind.quote? = some quote)
      (hinside : Inside quote inside) (hfeed : '\n' ∉ inside) :
      Refilled ⟨kind, text⟩ ⟨kind, quote :: (inside ++ [quote])⟩

/-- No quote stands alone as a lexeme. -/
def QuotesPaired (xs : List Lexeme) : Prop :=
  ∀ x ∈ xs, x.kind = .other → x.text ≠ [doubleQuote] ∧ x.text ≠ [singleQuote]

/-- Refilling the literals behind a semicolon, and what follows them, makes no comment of it. -/
theorem startsComment_refilled {xs ys : List Lexeme} {tail : Text}
    (h : List.Forall₂ Refilled (beforeComment xs) ys) (htail : startsComment tail = false)
    (hstart : startsComment (spell xs) = false) : startsComment (spell ys ++ tail) = false := by
  induction xs generalizing ys with
  | nil =>
    cases h
    exact htail
  | cons x xs ih =>
    by_cases hkind : x.kind = .comment
    · rw [beforeComment_cons_comment hkind] at h
      cases h
      exact htail
    rw [beforeComment_cons hkind] at h
    cases h with
    | cons hxy hlater =>
      rw [spell_cons, List.append_assoc]
      rw [spell_cons] at hstart
      cases hxy with
      | string hquote _ _ => exact startsComment_quote (LexemeKind.isQuote_of_quote? hquote) _
      | same =>
        by_cases hgap : ∀ c ∈ x.text, c = ' ' ∨ c = '\t'
        · rw [startsComment_gap hgap] at hstart ⊢
          exact ih hlater hstart
        · rw [startsComment_append_left hgap] at hstart ⊢
          exact hstart

theorem Refilled.kind_eq {x y : Lexeme} (h : Refilled x y) : y.kind = x.kind := by
  cases h <;> rfl

theorem Refilled.emptied_eq {x y : Lexeme} {rest : Text} (hxy : Refilled x y) (hx : x.Cut rest) :
    y.emptied = x.emptied := by
  cases hxy with
  | same => rfl
  | string hquote' _ _ =>
    cases hx with
    | string hquote _ =>
      obtain rfl := Option.some.inj (hquote.symm.trans hquote')
      simp [Lexeme.emptied, LexemeKind.isString_of_quote? hquote]
    | comment _ _ => simp [LexemeKind.quote?] at hquote'
    | loneQuote _ _ => simp [LexemeKind.quote?] at hquote'
    | semicolon _ => simp [LexemeKind.quote?] at hquote'
    | plain hstring _ _ _ =>
      rw [LexemeKind.isString_of_quote? hquote'] at hstring
      exact Bool.noConfusion hstring

/-- **Where one lexeme ends and the next begins does not move**, whatever the literals hold: a refilled lexeme
is cut off in front of what follows it now. -/
theorem Refilled.cut {x y : Lexeme} {rest rest' : Text} (hxy : Refilled x y) (hx : x.Cut rest)
    (hkind : x.kind ≠ .comment)
    (hpaired : x.kind = .other → x.text ≠ [doubleQuote] ∧ x.text ≠ [singleQuote])
    (hstart : startsComment rest = false → startsComment rest' = false) : y.Cut rest' := by
  cases hxy with
  | string hquote hinside _ => exact .string hquote hinside
  | same =>
    cases hx with
    | string hquote hinside => exact .string hquote hinside
    | comment _ _ => exact absurd rfl hkind
    | loneQuote hquote _ =>
      have hnot := hpaired rfl
      rcases isQuote_iff.mp hquote with rfl | rfl
      · exact absurd rfl hnot.1
      · exact absurd rfl hnot.2
    | semicolon h => exact .semicolon (hstart h)
    | plain hstring hcomment hplain hfeed => exact .plain hstring hcomment hplain hfeed

theorem bare_refilled {xs ys : List Lexeme} {tail : Text} (hlexed : Lexed [] xs) (hpaired : QuotesPaired xs)
    (h : List.Forall₂ Refilled (beforeComment xs) ys) (htail : startsComment tail = false) :
    bare (spell ys ++ tail) = bare (spell xs) ++ bare tail := by
  induction hlexed generalizing ys with
  | nil =>
    cases h
    rw [spell, List.flatMap_nil, bare_nil]
    rfl
  | @cons x xs hx _ ih =>
    rw [List.append_nil] at hx
    rw [spell_cons]
    by_cases hkind : x.kind = .comment
    · rw [beforeComment_cons_comment hkind] at h
      cases h
      rw [bare_isComment (hx.of_comment hkind).1]
      rfl
    rw [beforeComment_cons hkind] at h
    cases h with
    | cons hxy hlater =>
      obtain ⟨hpaired, hpairedLater⟩ := List.forall_mem_cons.mp hpaired
      have hy := hxy.cut hx hkind hpaired (startsComment_refilled hlater htail)
      rw [spell_cons, List.append_assoc, hy.bare_append (hxy.kind_eq ▸ hkind), hxy.emptied_eq hx,
        ih hpairedLater hlater, hx.bare_append hkind, List.append_assoc]

theorem Refilled.not_mem_spell {xs ys : List Lexeme} (h : List.Forall₂ Refilled xs ys)
    (hfeed : ∀ x ∈ xs, '\n' ∉ x.text) : '\n' ∉ spell ys := by
  induction h with
  | nil => simp [spell]
  | cons hxy _ ih =>
    obtain ⟨hx, hlater⟩ := List.forall_mem_cons.mp hfeed
    rw [spell_cons, List.mem_append, not_or]
    refine ⟨?_, ih hlater⟩
    cases hxy with
    | same => exact hx
    | string hquote _ hinside =>
      have hne : '\n' ≠ _ := (ne_of_class (LexemeKind.isQuote_of_quote? hquote) (by decide)).symm
      simp [hne, hinside]

/-! ### Lines with another wording -/

/-- The line `t` with other string contents and another comment, or none.  `front` is the label of `t` and the
blanks around it, `gap` the blanks before the new comment. -/
inductive Reworded (t : Text) : Text → Prop
  | intro {front back gap comment : Text} {xs ys : List Lexeme} (ht : t = front ++ dropLabel t ++ back)
      (hback : isBlankText back = true) (hlex : lex (dropLabel t) = .ok xs)
      (hrefilled : List.Forall₂ Refilled (beforeComment xs) ys) (hgap : isBlankText gap = true)
      (hfeed : '\n' ∉ gap) (hcomment : comment = [] ∨ IsComment comment) :
      Reworded t (front ++ spell ys ++ gap ++ comment)

theorem IsComment.startsComment {comment : Text} (h : IsComment comment) : startsComment comment = false := by
  obtain ⟨gap, more, -, -, rfl⟩ := h
  rfl

theorem startsComment_gap_append {gap comment : Text} (hgap : isBlankText gap = true)
    (hcomment : comment = [] ∨ IsComment comment) : startsComment (gap ++ comment) = false := by
  have hasterisk : '*' ∉ gap := not_mem_of_isBlankText hgap (by decide)
  have hstart : startsComment gap = false := startsComment_append_right hasterisk []
  rcases hcomment with rfl | hcomment
  · rwa [List.append_nil]
  by_cases hspaces : ∀ c ∈ gap, c = ' ' ∨ c = '\t'
  · rw [startsComment_gap hspaces]
    exact hcomment.startsComment
  · rw [startsComment_append_left hspaces]
    exact hstart

/-- **Rewording changes the bare text by blanks at its end only.** -/
theorem Reworded.trim_bare {t t' : Text} (h : Reworded t t')
    (hpaired : ∀ xs, lex (dropLabel t) = .ok xs → QuotesPaired xs) : trim (bare t') = trim (bare t) := by
  cases h with
  | @intro front back gap comment xs ys ht hback hlex hrefilled hgap hfeed hcomment =>
    have hplain : ∀ c ∈ front, isPlain c = true := fun c hc =>
      (front_of_eq_append hback ht c hc).elim isPlain_of_isBlank isPlain_of_isLabelChar
    obtain ⟨hlexed, hspell⟩ := lex_eq_ok hlex
    obtain ⟨r, hr, hbare⟩ := exists_bare_append hback (dropLabel t)
    have hcode : bare (spell ys ++ (gap ++ comment)) = bare (dropLabel t) ++ gap := by
      have hempty : bare comment = [] := by
        rcases hcomment with rfl | hcomment
        · exact bare_nil
        · rw [← List.append_nil comment, bare_isComment hcomment]
      rw [bare_refilled hlexed (hpaired xs hlex) hrefilled (startsComment_gap_append hgap hcomment), hspell,
        bare_plain_append (plain_of_isBlankText hgap), hempty, List.append_nil]
    calc trim (bare (front ++ spell ys ++ gap ++ comment))
        = trim (front ++ (bare (dropLabel t) ++ gap)) := by
          rw [List.append_assoc, List.append_assoc, bare_plain_append hplain, hcode]
      _ = trim (front ++ bare (dropLabel t)) := by
          rw [← List.append_assoc, trim_append_of_blank_right hgap]
      _ = trim (front ++ (bare (dropLabel t) ++ r)) := by
          rw [← List.append_assoc, trim_append_of_blank_right hr]
      _ = trim (bare t) := by
          conv_rhs => rw [ht]
          rw [List.append_assoc, bare_plain_append hplain, hbare]

theorem Reworded.not_mem {t t' : Text} (h : Reworded t t') (hfeed : '\n' ∉ t) : '\n' ∉ t' := by
  cases h with
  | @intro front back gap comment xs ys ht _ hlex hrefilled _ hgap hcomment =>
    obtain ⟨-, hspell⟩ := lex_eq_ok hlex
    have hlexemes : ∀ x ∈ beforeComment xs, '\n' ∉ x.text := by
      intro x hx hmem
      apply hfeed
      rw [ht, ← hspell]
      have hspelled : '\n' ∈ spell xs :=
        List.mem_flatMap.mpr ⟨x, (List.takeWhile_prefix _).subset hx, hmem⟩
      simp [hspelled]
    have hfront : '\n' ∉ front := by
      intro hmem
      apply hfeed
      rw [ht]
      simp [hmem]
    have hend : '\n' ∉ comment := by
      rcases hcomment with rfl | hcomment
      · simp
      · exact hcomment.not_mem
    simp [hfront, Refilled.not_mem_spell hrefilled hlexemes, hgap, hend]

/-- **What stands inside a string literal or in a comment has no effect.**  A line that is no directive and
where every quote has its partner does to the nesting what it does in any other wording. -/
theorem classify_reworded (d : Dialect) {t t' : Text} (hfeed : '\n' ∉ t) (hdirective : isDirective t = false)
    (hpaired : ∀ xs, lex (dropLabel t) = .ok xs → QuotesPaired xs) (h : Reworded t t') :
    ∃ c c', classify d t = .ok c ∧ classify d t' = .ok c' ∧ c'.SameEffect c := by
  have hsame : SameContent (bare t') (bare t) := .of_trim (h.trim_bare hpaired)
  have hdirective' : isDirective t' = false := by
    rw [← isDirective_bare, hsame.directive, isDirective_bare, hdirective]
  obtain ⟨c, hc, heffect⟩ := classify_bare d hfeed hdirective
  obtain ⟨c', hc', heffect'⟩ := classify_bare d (h.not_mem hfeed) hdirective'
  rw [hsame.code] at heffect'
  exact ⟨c, c', hc, hc', heffect'.trans heffect.symm⟩

theorem classify_reworded_clause :
    let t := "10 IF \"b\" THEN ;* go".toList
    let t' := "10 IF \"\\\";*\" THEN  ;*END".toList
    '\n' ∉ t ∧ isDirective t = false ∧ (∀ xs, lex (dropLabel t) = .ok xs → QuotesPaired xs) ∧ Reworded t t' ∧
      ∃ c c', classify {} t = .ok c ∧ classify {} t' = .ok c' ∧ c'.SameEffect c := by
  intro t t'
  let space : Lexeme := ⟨.gap, " ".toList⟩
  let test : Lexeme := ⟨.word, "IF".toList⟩
  let clause : Lexeme := ⟨.word, "THEN".toList⟩
  have hlex : lex (dropLabel t) = .ok
      [test, space, ⟨.doubleQuoted, "\"b\"".toList⟩, space, clause, space, ⟨.comment, ";* go".toList⟩] := by
    decide +kernel
  have hfeed : '\n' ∉ t := by decide
  have hdirective : isDirective t = false := by decide +kernel
  have hpaired : ∀ xs, lex (dropLabel t) = .ok xs → QuotesPaired xs := by
    intro xs hxs
    obtain rfl := Except.ok.inj (hlex.symm.trans hxs)
    unfold QuotesPaired
    decide
  have hinside : Inside doubleQuote "\\\";*".toList :=
    .escape (by decide) (.cons (by decide) (by decide) (.cons (by decide) (by decide) .nil))
  have hrefilled : List.Forall₂ Refilled
      [test, space, ⟨.doubleQuoted, "\"b\"".toList⟩, space, clause, space]
      [test, space, ⟨.doubleQuoted, "\"\\\";*\"".toList⟩, space, clause, space] :=
    .cons (.same _) (.cons (.same _) (.cons (.string rfl hinside (by decide)) (.cons (.same _)
      (.cons (.same _) (.cons (.same _) .nil)))))
  have hcomment : IsComment ";*END".toList := ⟨[], "END".toList, by simp, by decide, rfl⟩
  have htext : t = "10 ".toList ++ dropLabel t ++ [] := by decide +kernel
  have hgap : isBlankText " ".toList = true := by decide
  have hreworded : Reworded t t' := .intro htext rfl hlex hrefilled hgap (by decide) (Or.inr hcomment)
  exact ⟨hfeed, hdirective, hpaired, hreworded, classify_reworded {} hfeed hdirective hpaired hreworded⟩

end PickIndent
