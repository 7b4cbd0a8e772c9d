import PickIndent.Proofs.Lexeme.Leading
import PickIndent.Proofs.Result

/-!
# Emptied texts — lexing what is left of a text

The string literals of a text may be emptied and its comment cut off in one pass or one after the other
(`codeText_passes`), because the lexemes that are left are lexed again as they were.  The danger lies in a quote that
is never closed: with the inside of a later literal gone it might find a partner.  It does not, since a quote is no
backslash and reading starts afresh behind it (`closeString?_append_quote_eq_none_iff`), whether it is read from the
quote that is never closed or from a literal.
-/

namespace PickIndent

/-! ### Quotes that are never closed -/

/-- **Behind a quote reading starts afresh**, also if a backslash stands before it. -/
theorem closeString?_append_quote_eq_none_iff {quote other : Char} (hother : isQuote other = true) {p : Text}
    (hp : '\n' ∉ p) (t : Text) :
    closeString? quote (p ++ other :: t) = none ↔
      closeString? quote (p ++ [other]) = none ∧ closeString? quote t = none := by
  have hescape : other ≠ '\\' := ne_of_class hother isQuote_backslash
  have hfeed : other ≠ '\n' := ne_of_class hother (by decide)
  fun_induction closeString? quote p with
  | case1 =>
    by_cases hsame : other = quote
    · subst hsame
      simp [closeString?_quote]
    · simp [closeString?_cons hsame hescape, closeString?]
  | case2 p => simp [closeString?_quote]
  | case3 hquote => simp [closeString?_escape hquote hfeed, closeString?]
  | case4 p hquote => simp at hp
  | case5 c p hnot hquote ih =>
    have hlater : '\n' ∉ p := fun hmem => hp (by simp [hmem])
    simpa [closeString?_escape hquote hnot] using ih hlater
  | case6 c p hquote hnot ih =>
    have hlater : '\n' ∉ p := fun hmem => hp (by simp [hmem])
    simpa [closeString?_cons hquote hnot] using ih hlater

/-- The inside of a literal with the other quotes may be left out. -/
theorem closeString?_eq_none_of_inside {quote other : Char} (hquote : isQuote quote = true) (hne : other ≠ quote)
    (hother : isQuote other = true) {inside t : Text} (hinside : Inside other inside)
    (h : closeString? quote (inside ++ other :: t) = none) : closeString? quote t = none := by
  have hslash : '\\' ≠ quote := (ne_of_class hquote isQuote_backslash).symm
  induction hinside with
  | nil => exact ((closeString?_append_quote_eq_none_iff hother (by simp) t).mp h).2
  | @cons c inside _ hescape _ ih =>
    by_cases hc : c = quote
    · subst hc
      simp [closeString?_quote] at h
    · refine ih ?_
      simpa [closeString?_cons hc hescape] using h
  | escape hfeed _ ih =>
    refine ih ?_
    simpa [closeString?_escape hslash hfeed] using h

theorem Lexeme.emptied_of_not_isString {x : Lexeme} (h : x.kind.isString = false) : x.emptied = x := by
  simp [Lexeme.emptied, h]

theorem Lexeme.emptied_string {kind : LexemeKind} {quote : Char} (hquote : kind.quote? = some quote) (t : Text) :
    Lexeme.emptied ⟨kind, quote :: t⟩ = ⟨kind, [quote, quote]⟩ := by
  simp [Lexeme.emptied, LexemeKind.isString_of_quote? hquote]

@[simp] theorem Lexeme.kind_emptied (x : Lexeme) : x.emptied.kind = x.kind := by
  unfold Lexeme.emptied
  split <;> rfl

@[simp] theorem Lexeme.emptied_emptied (x : Lexeme) : x.emptied.emptied = x.emptied := by
  rcases x with ⟨kind, text⟩
  cases kind <;> cases text <;> rfl

/-- A lexeme is a string literal with its quotes and what stands between them, or none. -/
theorem Lexeme.Cut.string_or_not {x : Lexeme} {rest : Text} (h : x.Cut rest) :
    (∃ kind quote inside, x = ⟨kind, quote :: (inside ++ [quote])⟩ ∧ kind.quote? = some quote ∧
      Inside quote inside) ∨ x.kind.isString = false := by
  cases h with
  | string hquote hinside => exact Or.inl ⟨_, _, _, rfl, hquote, hinside⟩
  | comment _ _ => exact Or.inr rfl
  | loneQuote _ _ => exact Or.inr rfl
  | semicolon _ => exact Or.inr rfl
  | plain hstring _ _ _ => exact Or.inr hstring

/-- **A quote that is never closed is not closed when the literals behind it are emptied.** -/
theorem closeString?_emptied {quote : Char} (hquote : isQuote quote = true) {xs : List Lexeme} (hlexed : Lexed [] xs)
    {p : Text} (hp : '\n' ∉ p) (h : closeString? quote (p ++ spell xs) = none) :
    closeString? quote (p ++ spell (xs.map Lexeme.emptied)) = none := by
  induction hlexed generalizing p with
  | nil => exact h
  | @cons x xs hx _ ih =>
    rw [List.map_cons, spell_cons]
    rw [spell_cons] at h
    rcases hx.string_or_not with ⟨kind, other, inside, rfl, hother, hinside⟩ | hstring
    · have hotherQuote := LexemeKind.isQuote_of_quote? hother
      rw [Lexeme.emptied_string hother]
      simp only [List.cons_append, List.append_assoc, List.nil_append] at h ⊢
      obtain ⟨hfront, hback⟩ := (closeString?_append_quote_eq_none_iff hotherQuote hp _).mp h
      have hne : other ≠ quote := by
        rintro rfl
        simp [closeString?_inside hotherQuote hinside] at hback
      have hlater := ih (p := []) (by simp) (closeString?_eq_none_of_inside hquote hne hotherQuote hinside hback)
      have hclosing : closeString? quote (other :: spell (xs.map Lexeme.emptied)) = none := by
        rw [closeString?_cons hne (ne_of_class hotherQuote isQuote_backslash), ← List.nil_append (spell _), hlater]
        rfl
      exact (closeString?_append_quote_eq_none_iff hotherQuote hp _).mpr ⟨hfront, hclosing⟩
    · -- what has no line feed may be counted to what was read before
      have hfeed : '\n' ∉ p ++ x.text := by
        simpa [hp] using mt hx.isString_of_feed (by simp [hstring])
      rw [Lexeme.emptied_of_not_isString hstring, ← List.append_assoc]
      exact ih hfeed (by rwa [List.append_assoc])

/-! ### Lexing an emptied text -/

@[simp] theorem Lexeme.head?_emptied (x : Lexeme) : x.emptied.text.head? = x.text.head? := by
  rcases x with ⟨kind, text⟩
  cases kind <;> cases text <;> rfl

@[simp] theorem head?_spell_emptied (xs : List Lexeme) :
    (spell (xs.map Lexeme.emptied)).head? = (spell xs).head? := by
  induction xs with
  | nil => rfl
  | cons x xs ih => rw [List.map_cons, spell_cons, spell_cons, List.head?_append, List.head?_append, ih, x.head?_emptied]

theorem startsComment_emptied {xs : List Lexeme} (hlexed : Lexed [] xs) :
    startsComment (spell (xs.map Lexeme.emptied)) = startsComment (spell xs) := by
  induction hlexed with
  | nil => rfl
  | @cons x xs hx _ ih =>
    rw [List.map_cons, spell_cons, spell_cons]
    rcases hx.string_or_not with ⟨kind, quote, inside, rfl, hquote, -⟩ | hstring
    · have hisQuote := LexemeKind.isQuote_of_quote? hquote
      rw [Lexeme.emptied_string hquote]
      exact (startsComment_quote hisQuote _).trans (startsComment_quote hisQuote _).symm
    · rw [Lexeme.emptied_of_not_isString hstring]
      by_cases hgap : ∀ c ∈ x.text, c = ' ' ∨ c = '\t'
      · rw [startsComment_gap hgap, startsComment_gap hgap, ih]
      · rw [startsComment_append_left hgap, startsComment_append_left hgap]

/-- **Emptying the literals behind a lexeme does not make it longer.** -/
theorem Lexed.stopsLike_emptied {xs : List Lexeme} (h : Lexed [] xs) :
    StopsLike (spell xs) (spell (xs.map Lexeme.emptied)) where
  head c hc := by rwa [head?_spell_emptied] at hc
  fraction hrest := by
    rw [splitFraction_eq_nil_iff] at hrest ⊢
    intro u hu
    cases h with
    | nil => simp [spell] at hu
    | @cons x xs hx _ =>
      obtain ⟨c, t, htext, -⟩ := hx.exists_cons
      rw [List.map_cons, spell_cons] at hu
      rw [spell_cons, htext] at hrest
      have hpoint : c = '.' := by
        have hhead := congrArg List.head? hu
        rw [List.head?_append, Lexeme.head?_emptied, htext] at hhead
        simpa using hhead
      subst hpoint
      have hstring : x.kind.isString = false := by
        rcases hx.string_or_not with ⟨kind, quote, inside, rfl, hquote, -⟩ | hstring
        · obtain rfl := (List.cons.inj htext).1
          exact absurd (LexemeKind.isQuote_of_quote? hquote) (by decide)
        · exact hstring
      rw [Lexeme.emptied_of_not_isString hstring, htext, List.cons_append] at hu
      obtain rfl := (List.cons.inj hu).2
      rw [startsWithOrEnds_iff, List.head?_append, head?_spell_emptied, ← List.head?_append, ← startsWithOrEnds_iff]
      exact hrest (t ++ spell xs) rfl
  comment hrest := by rwa [startsComment_emptied h]
  quote q hq hrest := closeString?_emptied hq h (p := []) (by simp) hrest

/-- **Emptied literals are lexed as emptied literals**, and every other lexeme as it was. -/
theorem lex_spell_emptied {xs : List Lexeme} (h : lex (spell xs) = .ok xs) :
    lex (spell (xs.map Lexeme.emptied)) = .ok (xs.map Lexeme.emptied) := by
  induction xs with
  | nil => exact h
  | cons x xs ih =>
    obtain ⟨hx, hlater⟩ := lex_spell_cons_iff.mp h
    rw [List.map_cons, lex_spell_cons_iff]
    refine ⟨?_, ih hlater⟩
    rcases hx.cut.string_or_not with ⟨kind, quote, inside, rfl, hquote, -⟩ | hstring
    · rw [Lexeme.emptied_string hquote]
      exact leads_string hquote .nil _
    · rw [Lexeme.emptied_of_not_isString hstring]
      exact hx.mono (lex_eq_ok hlater).1.stopsLike_emptied

/-! ### Trimming at the ends of lexemes -/

theorem isBlank_of_isGap {c : Char} (h : isGap c = true) : isBlank c = true := by
  simp only [isGap, Bool.or_eq_true, beq_iff_eq] at h
  rcases h with (rfl | rfl) | rfl <;> decide

/-- A lexeme is blank, or no blank stands at its ends. A comment may end in blanks. -/
theorem Lexeme.Leads.blank_or_trimmed {x : Lexeme} {rest : Text} (h : x.Leads rest) (hkind : x.kind ≠ .comment) :
    isBlankText x.text = true ∨ Trimmed x.text := by
  have single : ∀ c : Char, isBlankText [c] = true ∨ Trimmed [c] := by
    intro c
    cases hc : isBlank c with
    | true => exact Or.inl (isBlankText_iff.mpr (by simpa using hc))
    | false => exact Or.inr (trimmed_of_isBlank (by simpa using hc))
  have hcut := h.cut
  cases hcut with
  | string hquote _ =>
    have hblank := isBlank_of_isQuote (LexemeKind.isQuote_of_quote? hquote)
    refine Or.inr ⟨fun c hc => ?_, fun c hc => ?_⟩
    · rwa [← Option.some.inj hc]
    · rw [← List.cons_append, List.getLast?_concat] at hc
      rwa [← Option.some.inj hc]
  | comment _ _ => exact absurd rfl hkind
  | loneQuote _ _ => exact single _
  | semicolon _ => exact single _
  | @plain kind c t _ _ _ hplain hfeed =>
    cases h.plainCut hplain hfeed with
    | word hstart ht _ =>
      have hall : ∀ a ∈ c :: t, isWordPart a = true :=
        List.forall_mem_cons.mpr ⟨isWordPart_of_isWordStart hstart, ht⟩
      exact Or.inr (trimmed_of_isBlank fun a ha => isBlank_of_class (by decide +kernel) (hall a ha))
    | @number _ ds f _ hstart hds hf _ _ =>
      have hall : ∀ a ∈ c :: (ds ++ f), (a.isDigit || a == '.') = true := by
        simp only [List.forall_mem_cons, List.forall_mem_append, Bool.or_eq_true, beq_iff_eq]
        exact ⟨Or.inl hstart, fun a ha => Or.inl (hds a ha), hf.isDigit_or_point⟩
      refine Or.inr (trimmed_of_isBlank fun a ha => ?_)
      exact isBlank_of_class (p := fun a => a.isDigit || a == '.') (by decide +kernel) (hall a ha)
    | gap _ _ hstart ht _ =>
      have hall : ∀ a ∈ c :: t, isGap a = true := List.forall_mem_cons.mpr ⟨hstart, ht⟩
      exact Or.inl (isBlankText_iff.mpr fun a ha => isBlank_of_isGap (hall a ha))
    | other _ _ _ => exact single _

theorem Lexeme.Leads.isBlankText_of_trimmed {x : Lexeme} {rest : Text} (h : x.Leads rest) (ht : Trimmed x.text) :
    isBlankText x.text = false := by
  obtain ⟨c, t, htext, -⟩ := h.cut.exists_cons
  rw [← Bool.not_eq_true, ← trim_eq_nil_iff, ht.trim_eq, htext]
  exact List.cons_ne_nil c t

/-- Only whole lexemes are cut off at the end. -/
theorem exists_trimEnd_spell {xs : List Lexeme} (h : lex (spell xs) = .ok xs) (hcomment : ∀ x ∈ xs, x.kind ≠ .comment) :
    ∃ ys zs, xs = ys ++ zs ∧ isBlankText (spell zs) = true ∧ trimEnd (spell xs) = spell ys := by
  induction xs using List.reverseRecOn with
  | nil => exact ⟨[], [], rfl, rfl, rfl⟩
  | append_singleton xs x ih =>
    obtain ⟨hx, -⟩ := lex_spell_cons_iff.mp (lex_spell_of_append h)
    have hlast : spell [x] = x.text := List.append_nil _
    rw [spell_append, hlast]
    rcases hx.blank_or_trimmed (hcomment x (by simp)) with hblank | htrimmed
    · obtain ⟨ys, zs, rfl, hzs, htrim⟩ := ih (lex_spell_of_append_right h) fun y hy => hcomment y (by simp [hy])
      refine ⟨ys, zs ++ [x], by simp, by simp [hzs, hlast, hblank], ?_⟩
      rw [trimEnd_append_of_blank hblank, htrim]
    · refine ⟨xs ++ [x], [], by simp, rfl, ?_⟩
      rw [trimEnd_append (hx.isBlankText_of_trimmed htrimmed), htrimmed.trimEnd_eq, spell_append, hlast]

/-- Only whole lexemes are cut off at the beginning. -/
theorem exists_trimStart_spell {xs : List Lexeme} (h : lex (spell xs) = .ok xs)
    (hcomment : ∀ x ∈ xs, x.kind ≠ .comment) :
    ∃ ys zs, xs = ys ++ zs ∧ isBlankText (spell ys) = true ∧ trimStart (spell xs) = spell zs := by
  induction xs with
  | nil => exact ⟨[], [], rfl, rfl, rfl⟩
  | cons x xs ih =>
    obtain ⟨hx, hlater⟩ := lex_spell_cons_iff.mp h
    obtain ⟨hkind, hkinds⟩ := List.forall_mem_cons.mp hcomment
    rw [spell_cons]
    rcases hx.blank_or_trimmed hkind with hblank | htrimmed
    · obtain ⟨ys, zs, rfl, hys, htrim⟩ := ih hlater hkinds
      refine ⟨x :: ys, zs, rfl, by simp [spell_cons, hblank, hys], ?_⟩
      rw [trimStart_append_of_blank hblank, htrim]
    · refine ⟨[], x :: xs, rfl, rfl, ?_⟩
      rw [trimStart_append (hx.isBlankText_of_trimmed htrimmed), htrimmed.trimStart_eq, spell_cons]

/-- **Trimmed lexemes without a comment are lexed as they were.** -/
theorem exists_trim_spell {xs : List Lexeme} (h : lex (spell xs) = .ok xs) (hcomment : ∀ x ∈ xs, x.kind ≠ .comment) :
    ∃ ys ⊆ xs, trim (spell xs) = spell ys ∧ lex (spell ys) = .ok ys := by
  obtain ⟨front, ys, rfl, -, hstart⟩ := exists_trimStart_spell h hcomment
  have hys := lex_spell_of_append h
  obtain ⟨ys, back, rfl, -, hend⟩ := exists_trimEnd_spell hys fun y hy => hcomment y (by simp [hy])
  exact ⟨ys, fun y hy => by simp [hy], by rw [trim, hstart, hend], lex_spell_of_append_right hys⟩

/-! ### One pass or two -/

theorem beforeComment_eq_self {xs : List Lexeme} (h : ∀ x ∈ xs, x.kind ≠ .comment) : beforeComment xs = xs :=
  List.takeWhile_eq_self_iff.mpr fun x hx => by simpa using h x hx

theorem beforeComment_map_emptied (xs : List Lexeme) :
    beforeComment (xs.map Lexeme.emptied) = (beforeComment xs).map Lexeme.emptied := by
  rw [beforeComment, beforeComment, List.takeWhile_map]
  congr 2
  funext x
  simp

theorem not_comment_of_mem_beforeComment {xs : List Lexeme} {x : Lexeme} (h : x ∈ beforeComment xs) :
    x.kind ≠ .comment := by
  simpa using List.mem_takeWhile_imp h

theorem lex_spell_beforeComment {xs : List Lexeme} (h : lex (spell xs) = .ok xs) :
    lex (spell (beforeComment xs)) = .ok (beforeComment xs) := by
  have hsplit := List.takeWhile_append_dropWhile (p := fun x : Lexeme => x.kind != .comment) (l := xs)
  rw [← hsplit] at h
  exact lex_spell_of_append_right h

/-- The code of a text has no comment, and all its literals are empty. -/
theorem exists_lex_codeText {t code : Text} (h : codeText t = .ok code) :
    ∃ xs, lex code = .ok xs ∧ (∀ x ∈ xs, x.kind ≠ .comment) ∧ ∀ x ∈ xs, x.emptied = x := by
  obtain ⟨xs, hlex, rfl⟩ := map_eq_ok_iff.mp h
  obtain ⟨-, rfl⟩ := lex_eq_ok hlex
  have hcode := lex_spell_emptied (lex_spell_beforeComment hlex)
  have hcomment : ∀ x ∈ (beforeComment xs).map Lexeme.emptied, x.kind ≠ .comment := by
    simpa using fun x hx => not_comment_of_mem_beforeComment hx
  obtain ⟨ys, hsub, htrim, hys⟩ := exists_trim_spell hcode hcomment
  refine ⟨ys, by rw [htrim, hys], fun y hy => hcomment y (hsub hy), fun y hy => ?_⟩
  obtain ⟨x, -, rfl⟩ := List.mem_map.mp (hsub hy)
  exact x.emptied_emptied

theorem codeText_codeText {t code : Text} (h : codeText t = .ok code) : codeText code = .ok code := by
  obtain ⟨ys, hlex, hcomment, hemptied⟩ := exists_lex_codeText h
  obtain ⟨xs, -, htrim⟩ := map_eq_ok_iff.mp h
  have hmap : ys.map Lexeme.emptied = ys := (List.map_congr_left hemptied).trans (List.map_id ys)
  rw [codeText, hlex, Except.map, beforeComment_eq_self hcomment, hmap, (lex_eq_ok hlex).2, ← htrim, trim_trim]

theorem emptyStrings_spell_emptied {xs : List Lexeme} (h : lex (spell xs) = .ok xs) :
    emptyStrings (spell (xs.map Lexeme.emptied)) = .ok (spell (xs.map Lexeme.emptied)) := by
  have htwice : Lexeme.emptied ∘ Lexeme.emptied = Lexeme.emptied := funext Lexeme.emptied_emptied
  rw [emptyStrings, lex_spell_emptied h, Except.map, List.map_map, htwice]

/-- The comment may be cut off after the literals were emptied. -/
theorem dropComment_spell_emptied {xs : List Lexeme} (h : lex (spell xs) = .ok xs) :
    (dropComment (spell (xs.map Lexeme.emptied))).map trim = codeText (spell xs) := by
  rw [dropComment, codeText, lex_spell_emptied h, h, map_map]
  simp only [Except.map, trim_trimEnd, beforeComment_map_emptied]

theorem Lexeme.mem_of_mem_emptied {x : Lexeme} {c : Char} (h : c ∈ x.emptied.text) : c ∈ x.text := by
  rcases x with ⟨kind, text⟩
  cases kind <;> cases text <;> simp_all [Lexeme.emptied, LexemeKind.isString]

/-- The comment may be cut off before the literals are emptied. -/
theorem emptyStrings_dropComment {t uncommented : Text} (h : dropComment t = .ok uncommented) :
    (emptyStrings uncommented).map trim = codeText t := by
  obtain ⟨xs, hlex, rfl⟩ := map_eq_ok_iff.mp h
  obtain ⟨-, rfl⟩ := lex_eq_ok hlex
  have hbefore := lex_spell_beforeComment hlex
  obtain ⟨ys, zs, hsplit, hblank, htrim⟩ :=
    exists_trimEnd_spell hbefore fun x hx => not_comment_of_mem_beforeComment hx
  rw [hsplit] at hbefore
  have hgap : isBlankText (spell (zs.map Lexeme.emptied)) = true := by
    rw [isBlankText_iff] at hblank ⊢
    intro c hc
    obtain ⟨x, hx, hc⟩ := List.mem_flatMap.mp hc
    obtain ⟨z, hz, rfl⟩ := List.mem_map.mp hx
    exact hblank c (List.mem_flatMap.mpr ⟨z, hz, Lexeme.mem_of_mem_emptied hc⟩)
  rw [htrim, emptyStrings, codeText, lex_spell_of_append_right hbefore, hlex, map_map]
  simp only [Except.map, hsplit, List.map_append, spell_append, trim_append_of_blank_right hgap]

theorem Lexed.exists_cut {xs : List Lexeme} {rest : Text} (h : Lexed rest xs) : ∀ x ∈ xs, ∃ later, x.Cut later := by
  induction h with
  | nil => simp
  | cons hx _ ih => exact List.forall_mem_cons.mpr ⟨⟨_, hx⟩, ih⟩

/-- **The code of a text in one pass or in two.**  Let a text have lexemes.  When its literals are emptied the
lexemes are the same, but for the literals, of which both quotes are left.  The code of the text comes out whether
the comment is cut off first or the literals are emptied first, and neither emptying literals nor taking the code
does anything more when it is done again. -/
theorem codeText_passes {t : Text} {xs : List Lexeme} (h : lex t = .ok xs) :
    ∃ emptied uncommented code,
      emptyStrings t = .ok emptied ∧ dropComment t = .ok uncommented ∧ codeText t = .ok code ∧
      lex emptied = .ok (xs.map Lexeme.emptied) ∧
      (∀ x ∈ xs, (x.kind.isString = false ∧ x.emptied = x) ∨
        ∃ quote inside, x.kind.quote? = some quote ∧ x.text = quote :: (inside ++ [quote]) ∧
          x.emptied = ⟨x.kind, [quote, quote]⟩) ∧
      (emptyStrings uncommented).map trim = .ok code ∧ (dropComment emptied).map trim = .ok code ∧
      emptyStrings emptied = .ok emptied ∧ codeText code = .ok code := by
  obtain ⟨hlexed, rfl⟩ := lex_eq_ok h
  have hemptied : emptyStrings (spell xs) = .ok (spell (xs.map Lexeme.emptied)) := by rw [emptyStrings, h]; rfl
  have huncommented : dropComment (spell xs) = .ok (trimEnd (spell (beforeComment xs))) := by rw [dropComment, h]; rfl
  obtain ⟨code, hcode⟩ : ∃ code, codeText (spell xs) = .ok code := ⟨_, by rw [codeText, h]; rfl⟩
  refine ⟨_, _, code, hemptied, huncommented, hcode, lex_spell_emptied h, fun x hx => ?_, ?_, ?_,
    emptyStrings_spell_emptied h, codeText_codeText hcode⟩
  · obtain ⟨later, hcut⟩ := hlexed.exists_cut x hx
    rcases hcut.string_or_not with ⟨kind, quote, inside, rfl, hquote, -⟩ | hstring
    · exact Or.inr ⟨quote, inside, hquote, rfl, Lexeme.emptied_string hquote _⟩
    · exact Or.inl ⟨hstring, Lexeme.emptied_of_not_isString hstring⟩
  · rw [emptyStrings_dropComment huncommented, hcode]
  · rw [dropComment_spell_emptied h, hcode]

theorem codeText_passes_loneQuote :
    let t := "A = \"\\'x\ny' \\\"B ;* it's".toList
    let xs : List Lexeme := (scan t).1
    let emptied := "A = \"\\'' \\\"B ;* it's".toList
    lex t = .ok xs ∧ emptyStrings t = .ok emptied ∧ lex emptied = .ok (xs.map Lexeme.emptied) ∧
      (dropComment emptied).map trim = codeText t ∧ emptyStrings emptied = .ok emptied := by
  intro t xs emptied
  have hlex : lex t = .ok xs := by decide +kernel
  have hemptied : emptyStrings t = .ok emptied := by decide +kernel
  obtain ⟨e, u, c, he, -, hc, hlexed, -, -, hdrop, hagain, -⟩ := codeText_passes hlex
  obtain rfl : emptied = e := Except.ok.inj (hemptied.symm.trans he)
  exact ⟨hlex, hemptied, hlexed, hdrop.trans hc.symm, hagain⟩

end PickIndent
