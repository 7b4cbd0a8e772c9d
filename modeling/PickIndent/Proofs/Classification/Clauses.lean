import PickIndent.Proofs.Classification.Bare
import PickIndent.Proofs.Lexeme.Emptied

/-!
# Clauses — the word that leaves a clause open

An inline statement opens a block when a continuation word stands at the end of its code.  A point, a dollar sign and
a percent sign end a word there but belong to the words that lexing cuts off.  So the last word of the code is the
continuation word, unless it is a longer word that ends in one of these signs and the continuation word
(`classify_opens_clause`).
-/

namespace PickIndent

/-! ### The lexeme at a place of a text -/

/-- The lexeme to which a character of the text belongs. -/
theorem exists_lexeme_at {xs : List Lexeme} {u v : Text} {c : Char} (h : spell xs = u ++ c :: v) :
    ∃ before w after p s, xs = before ++ w :: after ∧ w.text = p ++ c :: s ∧ u = spell before ++ p ∧
      v = s ++ spell after := by
  induction xs generalizing u with
  | nil => simp [spell] at h
  | cons x xs ih =>
    rw [spell_cons] at h
    rcases List.append_eq_append_iff.mp h with ⟨u', rfl, hlater⟩ | ⟨t, htext, hlater⟩
    · obtain ⟨before, w, after, p, s, rfl, hw, rfl, rfl⟩ := ih hlater
      exact ⟨x :: before, w, after, p, s, rfl, hw, by simp [spell_cons], rfl⟩
    · cases t with
      | nil =>
        obtain ⟨before, w, after, p, s, rfl, hw, hu, rfl⟩ := ih (u := []) hlater.symm
        refine ⟨x :: before, w, after, p, s, rfl, hw, ?_, rfl⟩
        rw [spell_cons, List.append_assoc, ← hu, htext, List.append_nil, List.append_nil]
      | cons a t =>
        obtain ⟨rfl, rfl⟩ := List.cons.inj hlater
        exact ⟨[], x, xs, u, t, rfl, htext, rfl, rfl⟩

theorem exists_leads_of_mem {xs : List Lexeme} (h : lex (spell xs) = .ok xs) : ∀ x ∈ xs, ∃ rest, x.Leads rest := by
  induction xs with
  | nil => simp
  | cons x xs ih =>
    obtain ⟨hx, hlater⟩ := lex_spell_cons_iff.mp h
    exact List.forall_mem_cons.mpr ⟨⟨_, hx⟩, ih hlater⟩

/-! ### Words -/

/-- A word is made of the characters of words, and it is not cut off before its end. -/
structure Lexeme.IsWord (w : Lexeme) (rest : Text) : Prop where
  kind_eq : w.kind = .word
  part : ∀ a ∈ w.text, isWordPart a = true
  stop : startsWithOrEnds (!isWordPart ·) rest = true

theorem isDecimalDigit_of_isDigit {c : Char} (h : c.isDigit = true) : isDecimalDigit c = true := by
  have hdigit : (decide (48 ≤ c.toNat) && decide (c.toNat ≤ 57)) = true := h
  have hzero : ∃ z ∈ digitZeros, z ≤ c.toNat ∧ c.toNat ≤ z + 9 := ⟨48, by decide, by simpa using hdigit⟩
  simpa [isDecimalDigit, decimalDigit?] using hzero

theorem isWordStart_of_isDigit {c : Char} (h : c.isDigit = true) : isWordStart c = false :=
  isWordStart_of_isDecimalDigit (isDecimalDigit_of_isDigit h)

theorem isWordStart_of_isGap {c : Char} (h : isGap c = true) : isWordStart c = false := by
  simp only [isGap, Bool.or_eq_true, beq_iff_eq] at h
  rcases h with (rfl | rfl) | rfl <;> decide

theorem isWordStart_of_isQuote {c : Char} (h : isQuote c = true) : isWordStart c = false := by
  rcases isQuote_iff.mp h with rfl | rfl <;> decide

theorem PlainCut.isWord {kind : LexemeKind} {c : Char} {t rest : Text} (h : PlainCut rest kind c t) {a : Char}
    (ha : a ∈ c :: t) (hstart : isWordStart a = true) : Lexeme.IsWord ⟨kind, c :: t⟩ rest := by
  cases h with
  | word hc ht hrest => exact ⟨rfl, List.forall_mem_cons.mpr ⟨isWordPart_of_isWordStart hc, ht⟩, hrest⟩
  | @number _ ds f hword _ hds hf _ _ =>
    have hall : ∀ b ∈ c :: (ds ++ f), isWordStart b = false := by
      simp only [List.forall_mem_cons, List.forall_mem_append]
      refine ⟨hword, fun b hb => isWordStart_of_isDigit (hds b hb), fun b hb => ?_⟩
      rcases hf.isDigit_or_point b hb with hdigit | rfl
      · exact isWordStart_of_isDigit hdigit
      · decide
    rw [hall a ha] at hstart
    exact Bool.noConfusion hstart
  | gap hword _ _ ht _ =>
    have hall : ∀ b ∈ c :: t, isWordStart b = false :=
      List.forall_mem_cons.mpr ⟨hword, fun b hb => isWordStart_of_isGap (ht b hb)⟩
    rw [hall a ha] at hstart
    exact Bool.noConfusion hstart
  | other hword _ _ =>
    rw [List.mem_singleton.mp ha, hword] at hstart
    exact Bool.noConfusion hstart

/-- **A letter in the code belongs to a word.** -/
theorem Lexeme.Leads.isWord {w : Lexeme} {rest : Text} (h : w.Leads rest) (hcomment : w.kind ≠ .comment)
    (hemptied : w.emptied = w) {a : Char} (ha : a ∈ w.text) (hstart : isWordStart a = true) : w.IsWord rest := by
  have not_quote : isQuote a ≠ true := fun hquote => by
    rw [isWordStart_of_isQuote hquote] at hstart
    exact Bool.noConfusion hstart
  have hcut := h.cut
  cases hcut with
  | @string kind quote inside _ hquote _ =>
    rw [Lexeme.emptied_string hquote] at hemptied
    obtain rfl : a = quote := by
      rw [← hemptied] at ha
      simpa using ha
    exact absurd (LexemeKind.isQuote_of_quote? hquote) not_quote
  | comment _ _ => exact absurd rfl hcomment
  | loneQuote hquote _ =>
    rw [← List.mem_singleton.mp ha] at hquote
    exact absurd hquote not_quote
  | semicolon _ =>
    rw [List.mem_singleton.mp ha] at hstart
    exact absurd hstart (by decide)
  | plain _ _ hplain hfeed => exact (h.plainCut hplain hfeed).isWord ha hstart

theorem Lexeme.Leads.exists_wordStart {w : Lexeme} {rest : Text} (h : w.Leads rest) (hkind : w.kind = .word) :
    ∃ a ∈ w.text, isWordStart a = true := by
  have hcut := h.cut
  cases hcut with
  | string hquote _ =>
    obtain rfl : _ = LexemeKind.word := hkind
    simp [LexemeKind.quote?] at hquote
  | comment _ _ => simp at hkind
  | loneQuote _ _ => simp at hkind
  | semicolon _ => simp at hkind
  | @plain kind c t _ _ _ hplain hfeed =>
    obtain rfl : kind = .word := hkind
    cases h.plainCut hplain hfeed with
    | word hstart _ _ => exact ⟨c, by simp, hstart⟩

theorem isWordChar_of_isAlphanum {c : Char} (h : c.isAlphanum = true) : isWordChar c = true := by
  have hclass : (decide (65 ≤ c.toNat ∧ c.toNat ≤ 90) || (decide (97 ≤ c.toNat) && decide (c.toNat ≤ 122)) ||
      (decide (48 ≤ c.toNat) && decide (c.toNat ≤ 57))) = true := h
  have hbound : c.toNat < 128 := by
    simp only [Bool.or_eq_true, Bool.and_eq_true, decide_eq_true_eq] at hclass
    omega
  have hall : ∀ n < 128, (Char.ofNat n).isAlphanum = true → isWordChar (Char.ofNat n) = true := by decide +kernel
  rw [← Char.ofNat_toNat c] at h ⊢
  exact hall c.toNat hbound h

/-- What belongs to a word but ends one before a continuation word. -/
theorem sign_of_isWordPart {c : Char} (hpart : isWordPart c = true) (hword : isWordChar c = false) :
    c = '.' ∨ c = '$' ∨ c = '%' := by
  have halnum : c.isAlphanum = false := by
    rw [← Bool.not_eq_true]
    intro h
    simp [isWordChar_of_isAlphanum h] at hword
  have hunder : c ≠ '_' := by
    rintro rfl
    simp [isWordChar] at hword
  simpa [isWordPart, halnum, hunder, or_assoc] using hpart

/-! ### The end of the code -/

theorem exists_of_endsInWord {fold : Char → Char} {p : Char → Bool} {word t : Text}
    (h : endsInWord fold p word t = true) :
    ∃ front w, t = front ++ w ∧ w.map fold = word ∧ startsWithOrEnds p front.reverse = true := by
  unfold endsInWord at h
  split at h
  next => exact Bool.noConfusion h
  next before hdrop =>
    obtain ⟨u, ht, hu⟩ := exists_of_dropFront?_eq_some hdrop
    refine ⟨before.reverse, u.reverse, ?_, ?_, by rwa [List.reverse_reverse]⟩
    · rw [← List.reverse_append, ← ht, List.reverse_reverse]
    · rw [List.map_reverse, hu, List.reverse_reverse]

theorem exists_dropSemicolon_append (t : Text) : ∃ s, (s = [] ∨ s = [';']) ∧ t = dropSemicolon t ++ s := by
  unfold dropSemicolon
  split
  next h =>
    refine ⟨[';'], Or.inr rfl, ?_⟩
    obtain ⟨u, rfl⟩ := List.getLast?_eq_some_iff.mp h
    rw [List.dropLast_concat]
  next => exact ⟨[], Or.inl rfl, (List.append_nil t).symm⟩

/-- Where case matters, code that leaves a clause open ends in a continuation word, blanks and a semicolon, of which
both may be missing. -/
theorem exists_of_endsOpen {d : Dialect} (hcase : d.ignoreCase = false) {code : Text} (h : endsOpen d code = true) :
    ∃ front gap semicolon, ∃ word ∈ Keyword.continuations, code = front ++ (word ++ (gap ++ semicolon)) ∧
      startsWithOrEnds (!isWordChar ·) front.reverse = true ∧ isBlankText gap = true ∧
      (semicolon = [] ∨ semicolon = [';']) := by
  obtain ⟨word, hword, hends⟩ := List.any_eq_true.mp h
  obtain ⟨front, w, htrim, hw, hfront⟩ := exists_of_endsInWord hends
  obtain ⟨semicolon, hsemicolon, hcode⟩ := exists_dropSemicolon_append code
  obtain ⟨gap, hgap, hdrop⟩ := exists_trimEnd_append (dropSemicolon code)
  have hsame : w.map (letter d.ignoreCase) = w := by
    rw [hcase]
    exact List.map_id w
  refine ⟨front, gap, semicolon, word, hword, ?_, hfront, hgap, hsemicolon⟩
  rw [hcode, ← hdrop, htrim, ← hw, hsame]
  simp

theorem Keyword.exists_cons_of_continuation {word : Text} (h : word ∈ Keyword.continuations) :
    ∃ a t, word = a :: t ∧ isWordStart a = true ∧ ∀ c ∈ t, isWordPart c = true := by
  simp only [Keyword.continuations, List.mem_cons, List.not_mem_nil, or_false] at h
  rcases h with rfl | rfl | rfl | rfl <;> exact ⟨_, _, rfl, by decide, List.all_eq_true.mp (by decide)⟩

theorem not_isWordPart_of_end {gap semicolon : Text} (hgap : isBlankText gap = true)
    (hsemicolon : semicolon = [] ∨ semicolon = [';']) : ∀ c ∈ gap ++ semicolon, isWordPart c = false := by
  have hblank : ∀ c ∈ gap, isWordPart c = false := by
    intro c hc
    rw [← Bool.not_eq_true]
    intro hpart
    have hnot : isBlank c = false := isBlank_of_class (by decide +kernel) hpart
    rw [isBlankText_iff.mp hgap c hc] at hnot
    exact Bool.noConfusion hnot
  rcases hsemicolon with rfl | rfl
  · simpa using hblank
  · exact List.forall_mem_append.mpr ⟨hblank, List.forall_mem_singleton.mpr (by decide)⟩

/-- **Code that leaves a clause open ends in a word that is or ends in a continuation word.** -/
theorem exists_last_word {t code front gap semicolon word : Text} (hcode : codeText t = .ok code)
    (hword : word ∈ Keyword.continuations) (hends : code = front ++ (word ++ (gap ++ semicolon)))
    (hgap : isBlankText gap = true) (hsemicolon : semicolon = [] ∨ semicolon = [';']) :
    ∃ before w after head, lex code = .ok (before ++ w :: after) ∧ w.IsWord (spell after) ∧
      w.text = head ++ word ∧ front = spell before ++ head ∧ spell after = gap ++ semicolon ∧
      ∀ x ∈ after, x.kind ≠ .word := by
  obtain ⟨xs, hlex, hcomment, hemptied⟩ := exists_lex_codeText hcode
  have hspell := (lex_eq_ok hlex).2
  obtain ⟨a, u, rfl, hstart, hu⟩ := Keyword.exists_cons_of_continuation hword
  have hplace : spell xs = front ++ a :: (u ++ (gap ++ semicolon)) := by rw [hspell, hends]; rfl
  obtain ⟨before, w, after, head, s, rfl, hw, hfront, hrest⟩ := exists_lexeme_at hplace
  rw [← hspell] at hlex
  obtain ⟨hleads, hafter⟩ := lex_spell_cons_iff.mp (lex_spell_of_append hlex)
  have hisWord : w.IsWord (spell after) :=
    hleads.isWord (hcomment w (by simp)) (hemptied w (by simp)) (a := a) (by simp [hw]) hstart
  -- the word is cut off where the continuation word ends
  have hnot := not_isWordPart_of_end hgap hsemicolon
  have hstop : startsWithOrEnds (!isWordPart ·) (gap ++ semicolon) = true :=
    startsWithOrEnds_iff.mpr fun c hc => by simp [hnot c (List.mem_of_mem_head? hc)]
  have hs : ∀ c ∈ s, isWordPart c = true := fun c hc => hisWord.part c (by simp [hw, hc])
  obtain ⟨htake, hdrop⟩ := takeWhile_append_of_stop hu hstop
  obtain ⟨htake', hdrop'⟩ := takeWhile_append_of_stop hs hisWord.stop
  have htail : u = s := by rw [← htake, hrest, htake']
  have hend : gap ++ semicolon = spell after := by rw [← hdrop, hrest, hdrop']
  refine ⟨before, w, after, head, by rw [← hspell, hlex], hisWord, by rw [hw, htail], hfront, hend.symm, ?_⟩
  intro x hx hkind
  obtain ⟨rest, hxleads⟩ := exists_leads_of_mem hafter x hx
  obtain ⟨b, hb, hbstart⟩ := hxleads.exists_wordStart hkind
  have hmem : b ∈ gap ++ semicolon := by
    rw [hend]
    exact List.mem_flatMap.mpr ⟨x, hx, hb⟩
  have hpart := isWordPart_of_isWordStart hbstart
  rw [hnot b hmem] at hpart
  exact Bool.noConfusion hpart

/-! ### Lines -/

/-- **An inline statement opens a block at a continuation word.**  If a line opens one where case matters, then the
last word of its code is the continuation word, or a longer word that ends in it behind a point, a dollar sign or a
percent sign, and nothing stands behind it but blanks and at most one semicolon.  So it is the continuation word
itself exactly if none of these signs stands in it. -/
theorem classify_opens_clause {d : Dialect} (hcase : d.ignoreCase = false) {line : Text} {c : Classification}
    (h : classify d line = .ok c) (hopens : c.opens = true) {k : Keyword} (hk : c.keyword = some k)
    (hinline : k.inlineOnly = true) :
    ∃ before w after, lex c.code = .ok (before ++ w :: after) ∧ w.kind = .word ∧ (∀ x ∈ after, x.kind ≠ .word) ∧
      (∃ gap semicolon, spell after = gap ++ semicolon ∧ isBlankText gap = true ∧
        (semicolon = [] ∨ semicolon = [';'])) ∧
      (∃ head, ∃ word ∈ Keyword.continuations, w.text = head ++ word ∧
        ∀ a ∈ head.getLast?, a = '.' ∨ a = '$' ∨ a = '%') ∧
      (w.text ∈ Keyword.continuations ↔ '.' ∉ w.text ∧ '$' ∉ w.text ∧ '%' ∉ w.text) := by
  obtain ⟨hcode, hblock, -⟩ := classify_of_keyword h hk
  have hopen : endsOpen d c.code = true := by
    rw [hopens, opensBlock, hinline] at hblock
    simp only [Bool.true_eq, Bool.and_eq_true] at hblock
    simpa using hblock.1.2
  obtain ⟨front, gap, semicolon, word, hword, hends, hfront, hgap, hsemicolon⟩ := exists_of_endsOpen hcase hopen
  obtain ⟨before, w, after, head, hlex, hisWord, hw, hhead, hafter, hnone⟩ :=
    exists_last_word hcode hword hends hgap hsemicolon
  have hsign : ∀ a ∈ head.getLast?, a = '.' ∨ a = '$' ∨ a = '%' := by
    intro a ha
    refine sign_of_isWordPart (hisWord.part a ?_) ?_
    · rw [hw]
      exact List.mem_append_left _ (List.mem_of_getLast? ha)
    · have hlast : a ∈ front.reverse.head? := by
        rw [List.head?_reverse, hhead, List.getLast?_append, ha]
        rfl
      simpa using startsWithOrEnds_iff.mp hfront a hlast
  refine ⟨before, w, after, hlex, hisWord.kind_eq, hnone, ⟨gap, semicolon, hafter, hgap, hsemicolon⟩,
    ⟨head, word, hword, hw, hsign⟩, fun hmem => ?_, fun hfree => ?_⟩
  · have hclean : ∀ w ∈ Keyword.continuations, '.' ∉ w ∧ '$' ∉ w ∧ '%' ∉ w := by decide
    exact hclean w.text hmem
  · cases hlast : head.getLast? with
    | none =>
      rw [hw, List.getLast?_eq_none_iff.mp hlast]
      exact hword
    | some a =>
      have hmem : a ∈ w.text := by
        rw [hw]
        exact List.mem_append_left _ (List.mem_of_getLast? hlast)
      rcases hsign a hlast with rfl | rfl | rfl
      · exact absurd hmem hfree.1
      · exact absurd hmem hfree.2.1
      · exact absurd hmem hfree.2.2

theorem classify_opens_clause_locked :
    let line := "10 READU \"THEN\" FROM A.B$ LOCKED ; ;* DO".toList
    let c : Classification :=
      { keyword := some (.clause .readu), opens := true, closes := false,
        code := "READU \"\" FROM A.B$ LOCKED ;".toList }
    classify {} line = .ok c ∧ Keyword.inlineOnly (.clause .readu) = true ∧
      ∃ before w after, lex c.code = .ok (before ++ w :: after) ∧ w.kind = .word ∧
        (∀ x ∈ after, x.kind ≠ .word) ∧ (w.text ∈ Keyword.continuations ↔ '.' ∉ w.text ∧ '$' ∉ w.text ∧ '%' ∉ w.text) := by
  intro line c
  have hclassify : classify {} line = .ok c := by decide +kernel
  obtain ⟨before, w, after, hlex, hkind, hnone, -, -, hexact⟩ :=
    classify_opens_clause rfl hclassify rfl rfl rfl
  exact ⟨hclassify, rfl, before, w, after, hlex, hkind, hnone, hexact⟩

/-- A word that only ends in a continuation word opens a block when a point stands before it. -/
theorem word_behind_point_opens :
    let line := "IF A.THEN".toList
    let word : Lexeme := ⟨.word, "A.THEN".toList⟩
    classify {} line = .ok { keyword := some (.clause .ifTest), opens := true, closes := false, code := line } ∧
      lex line = .ok [⟨.word, "IF".toList⟩, ⟨.gap, " ".toList⟩, word] ∧ word.text ∉ Keyword.continuations := by
  decide +kernel

end PickIndent
