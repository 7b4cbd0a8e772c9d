import PickIndent.Proofs.Label.Line
import PickIndent.Proofs.Lexeme.Bare

/-!
# Leading lexemes — what a lexeme asks of the text behind it

A lexeme leads in front of a text if it is the one that lexing cuts off when it stands there (`Lexeme.Leads`), and
lexemes are those of what they spell exactly if each of them leads in front of those behind it
(`lex_spell_cons_iff`).  A lexeme asks little of what stands behind it: the next character, and sometimes whether a
fraction, a comment or the rest of a literal begins there.  Where all that is answered alike (`StopsLike`), the same
lexemes lead (`Lexeme.Leads.mono`).  In particular lexemes are lexed in the same way when those behind them are cut
off.
-/

namespace PickIndent

/-! ### Lexing one lexeme after the other -/

/-- The lexeme is the first of the text that it makes together with what stands behind it. -/
def Lexeme.Leads (x : Lexeme) (rest : Text) : Prop :=
  ∃ c t, x.text = c :: t ∧ c ≠ '\n' ∧ nextLexeme c (t ++ rest) = (x, rest)

theorem lex_eq_ok_iff_scan {t : Text} {xs : List Lexeme} : lex t = .ok xs ↔ scan t = (xs, []) := by
  unfold lex
  split
  next ys hscan => simp [hscan]
  next hscan => simp [hscan]

theorem lex_cons_eq_ok_iff {c : Char} (hc : c ≠ '\n') {t : Text} {x : Lexeme} {xs : List Lexeme} :
    lex (c :: t) = .ok (x :: xs) ↔ (nextLexeme c t).1 = x ∧ lex (nextLexeme c t).2 = .ok xs := by
  rw [lex_eq_ok_iff_scan, lex_eq_ok_iff_scan, scan, if_neg hc, Prod.ext_iff, Prod.ext_iff, List.cons.injEq]
  exact and_assoc

@[simp] theorem lex_nil : lex [] = .ok [] := by rw [lex_eq_ok_iff_scan, scan]

/-- **Lexemes are those of what they spell exactly if each of them leads in front of the others.** -/
theorem lex_spell_cons_iff {x : Lexeme} {xs : List Lexeme} :
    lex (spell (x :: xs)) = .ok (x :: xs) ↔ x.Leads (spell xs) ∧ lex (spell xs) = .ok xs := by
  constructor
  · intro h
    obtain ⟨hlexed, -⟩ := lex_eq_ok h
    cases hlexed with
    | cons hx _ =>
      obtain ⟨c, t, htext, hc⟩ := hx.exists_cons
      rw [spell_cons, htext, List.cons_append, lex_cons_eq_ok_iff hc] at h
      obtain ⟨hfirst, hlater⟩ := h
      have hspell := (lex_eq_ok hlater).2
      refine ⟨⟨c, t, htext, hc, Prod.ext hfirst hspell.symm⟩, ?_⟩
      rwa [← hspell] at hlater
  · rintro ⟨⟨c, t, htext, hc, hnext⟩, hlater⟩
    rw [spell_cons, htext, List.cons_append, lex_cons_eq_ok_iff hc, hnext]
    exact ⟨rfl, hlater⟩

@[simp] theorem spell_append (xs ys : List Lexeme) : spell (xs ++ ys) = spell xs ++ spell ys :=
  List.flatMap_append

/-- Lexemes at the end are lexed without those in front of them. -/
theorem lex_spell_of_append {xs ys : List Lexeme} (h : lex (spell (xs ++ ys)) = .ok (xs ++ ys)) :
    lex (spell ys) = .ok ys := by
  induction xs with
  | nil => exact h
  | cons x xs ih => exact ih (lex_spell_cons_iff.mp h).2

theorem Lexeme.Leads.cut {x : Lexeme} {rest : Text} (h : x.Leads rest) : x.Cut rest := by
  obtain ⟨c, t, -, hc, hnext⟩ := h
  have hcut := nextLexeme_cut hc (t ++ rest)
  rwa [hnext] at hcut

/-! ### String literals, comments and characters that stand alone -/

section Introductions

variable {rest : Text}

theorem leads_string {kind : LexemeKind} {quote : Char} (hquote : kind.quote? = some quote) {inside : Text}
    (h : Inside quote inside) (rest : Text) : Lexeme.Leads ⟨kind, quote :: (inside ++ [quote])⟩ rest := by
  have hclose := closeString?_inside (LexemeKind.isQuote_of_quote? hquote) h rest
  refine ⟨quote, inside ++ [quote], rfl, ne_of_class (LexemeKind.isQuote_of_quote? hquote) (by decide), ?_⟩
  rw [List.append_assoc, List.singleton_append, nextLexeme]
  cases kind <;> simp only [LexemeKind.quote?, Option.some.injEq, reduceCtorEq] at hquote <;> subst hquote
  · rw [if_pos rfl, hclose]
  · rw [if_neg (by decide), if_pos rfl, hclose]

theorem leads_loneQuote {quote : Char} (hquote : isQuote quote = true) (h : closeString? quote rest = none) :
    Lexeme.Leads ⟨.other, [quote]⟩ rest := by
  refine ⟨quote, [], rfl, ne_of_class hquote (by decide), ?_⟩
  rw [List.nil_append, nextLexeme]
  rcases Bool.or_eq_true_iff.mp hquote with hkind | hkind <;> obtain rfl := beq_iff_eq.mp hkind
  · rw [if_pos rfl, h]
  · rw [if_neg (by decide), if_pos rfl, h]

theorem nextLexeme_semicolon (t : Text) :
    nextLexeme ';' t =
      if startsComment t then (⟨.comment, ';' :: t.takeWhile (· != '\n')⟩, t.dropWhile (· != '\n'))
      else (⟨.other, [';']⟩, t) := by
  rw [nextLexeme, if_neg (by decide), if_neg (by decide), if_pos rfl, closeComment?_eq]
  cases startsComment t <;> rfl

theorem leads_comment {text : Text} (h : IsComment text) (hrest : startsWithOrEnds (· == '\n') rest = true) :
    Lexeme.Leads ⟨.comment, text⟩ rest := by
  obtain ⟨gap, more, hgap, hmore, rfl⟩ := h
  have hstart : startsComment (gap ++ '*' :: more ++ rest) = true := by
    rw [List.append_assoc, startsComment_gap hgap]
    rfl
  have hline : ∀ a ∈ gap ++ '*' :: more, (a != '\n') = true := by
    have hfeed : '\n' ∉ ';' :: gap ++ '*' :: more := IsComment.not_mem ⟨gap, more, hgap, hmore, rfl⟩
    intro a ha
    rw [bne_iff_ne]
    rintro rfl
    exact hfeed (List.mem_cons_of_mem ';' ha)
  have hstop : startsWithOrEnds (fun a => !(a != '\n')) rest = true :=
    startsWithOrEnds_mono (fun a ha => by simpa using ha) hrest
  obtain ⟨htake, hdrop⟩ := takeWhile_append_of_stop hline hstop
  refine ⟨';', gap ++ '*' :: more, rfl, by decide, ?_⟩
  rw [nextLexeme_semicolon, hstart, if_pos rfl, htake, hdrop]
  rfl

theorem leads_semicolon (h : startsComment rest = false) : Lexeme.Leads ⟨.other, [';']⟩ rest :=
  ⟨';', [], rfl, by decide, by rw [List.nil_append, nextLexeme_semicolon, h, if_neg Bool.false_ne_true]⟩

end Introductions

/-! ### Words, numbers, gaps and other characters -/

/-- The ways in which a lexeme that begins with a plain character ends in front of a text. -/
inductive PlainCut (rest : Text) : LexemeKind → Char → Text → Prop
  | word {c : Char} {t : Text} (hstart : isWordStart c = true) (ht : ∀ a ∈ t, isWordPart a = true)
      (hrest : startsWithOrEnds (!isWordPart ·) rest = true) : PlainCut rest .word c t
  | number {c : Char} {ds f : Text} (hword : isWordStart c = false) (hstart : c.isDigit = true)
      (hds : ∀ a ∈ ds, a.isDigit = true) (hf : IsFraction Char.isDigit f)
      (hrest : startsWithOrEnds (!Char.isDigit ·) rest = true)
      (hfraction : f = [] → (splitFraction Char.isDigit rest).1 = []) : PlainCut rest .number c (ds ++ f)
  | gap {c : Char} {t : Text} (hword : isWordStart c = false) (hdigit : c.isDigit = false)
      (hstart : isGap c = true) (ht : ∀ a ∈ t, isGap a = true) (hrest : startsWithOrEnds (!isGap ·) rest = true) :
      PlainCut rest .gap c t
  | other {c : Char} (hword : isWordStart c = false) (hdigit : c.isDigit = false) (hgap : isGap c = false) :
      PlainCut rest .other c []

theorem nextLexeme_plain {c : Char} (hc : isPlain c = true) (t : Text) :
    nextLexeme c t =
      if isWordStart c then (⟨.word, c :: t.takeWhile isWordPart⟩, t.dropWhile isWordPart)
      else if c.isDigit then
        (⟨.number, c :: (splitNumber Char.isDigit t).1⟩, (splitNumber Char.isDigit t).2)
      else if isGap c then (⟨.gap, c :: t.takeWhile isGap⟩, t.dropWhile isGap)
      else (⟨.other, [c]⟩, t) := by
  obtain ⟨hdouble, hsingle, hsemicolon⟩ := isPlain_eq.mp hc
  rw [nextLexeme, if_neg hdouble, if_neg hsingle, if_neg hsemicolon]

theorem splitNumber_of_stop {ds f rest : Text} (hds : ∀ a ∈ ds, a.isDigit = true) (hf : IsFraction Char.isDigit f)
    (hrest : startsWithOrEnds (!Char.isDigit ·) rest = true)
    (hfraction : f = [] → (splitFraction Char.isDigit rest).1 = []) :
    splitNumber Char.isDigit (ds ++ f ++ rest) = (ds ++ f, rest) := by
  rw [splitNumber, List.append_assoc]
  rcases hf with rfl | ⟨d, es, hes, rfl⟩
  · obtain ⟨htake, hdrop⟩ := takeWhile_append_of_stop hds hrest
    have hnone := hfraction rfl
    have hall := splitFraction_append Char.isDigit rest
    rw [hnone, List.nil_append] at hall
    rw [List.nil_append, htake, hdrop, hnone, hall]
  · have hpoint : startsWithOrEnds (!Char.isDigit ·) ('.' :: d :: es ++ rest) = true := rfl
    obtain ⟨htake, hdrop⟩ := takeWhile_append_of_stop hds hpoint
    obtain ⟨htake', hdrop'⟩ := takeWhile_append_of_stop hes hrest
    have hd : d.isDigit = true := hes d (by simp)
    rw [htake, hdrop, List.cons_append, splitFraction, htake', hdrop', if_neg (by simp [startsWithOrEnds, hd])]

theorem exists_of_splitNumber {t rest : Text} (h : splitNumber Char.isDigit (t ++ rest) = (t, rest)) :
    ∃ ds f, t = ds ++ f ∧ (∀ a ∈ ds, a.isDigit = true) ∧ IsFraction Char.isDigit f ∧
      startsWithOrEnds (!Char.isDigit ·) rest = true ∧ (f = [] → (splitFraction Char.isDigit rest).1 = []) := by
  obtain ⟨ht, hrest⟩ := Prod.mk.inj h
  have hstop := startsWithOrEnds_dropWhile Char.isDigit (t ++ rest)
  generalize (t ++ rest).dropWhile Char.isDigit = u at ht hrest hstop
  refine ⟨_, _, ht.symm, fun a ha => List.mem_takeWhile_imp ha, isFraction_splitFraction u, ?_, fun hnone => ?_⟩
  · rw [← hrest]
    unfold splitFraction
    split
    next v =>
      split
      · exact hstop
      · exact startsWithOrEnds_dropWhile Char.isDigit v
    next => exact hstop
  · have hall := splitFraction_append Char.isDigit u
    rw [hnone, hrest, List.nil_append] at hall
    rwa [hall]

theorem nextLexeme_plain_iff {kind : LexemeKind} {c : Char} {t rest : Text} (hc : isPlain c = true) :
    nextLexeme c (t ++ rest) = (⟨kind, c :: t⟩, rest) ↔ PlainCut rest kind c t := by
  rw [nextLexeme_plain hc]
  constructor
  · intro h
    split at h
    next hword =>
      obtain ⟨⟨rfl, htake⟩, hdrop⟩ : (LexemeKind.word = kind ∧ (t ++ rest).takeWhile isWordPart = t) ∧
        (t ++ rest).dropWhile isWordPart = rest := by simpa using h
      obtain ⟨ht, hrest⟩ := stop_of_takeWhile_append htake hdrop
      exact .word hword ht hrest
    next hword =>
    have hword : isWordStart c = false := by simpa using hword
    split at h
    next hdigit =>
      obtain ⟨⟨rfl, htake⟩, hdrop⟩ : (LexemeKind.number = kind ∧ (splitNumber Char.isDigit (t ++ rest)).1 = t) ∧
        (splitNumber Char.isDigit (t ++ rest)).2 = rest := by simpa using h
      obtain ⟨ds, f, rfl, hds, hf, hrest, hfraction⟩ := exists_of_splitNumber (Prod.ext htake hdrop)
      exact .number hword hdigit hds hf hrest hfraction
    next hdigit =>
    have hdigit : c.isDigit = false := by simpa using hdigit
    split at h
    next hgap =>
      obtain ⟨⟨rfl, htake⟩, hdrop⟩ : (LexemeKind.gap = kind ∧ (t ++ rest).takeWhile isGap = t) ∧
        (t ++ rest).dropWhile isGap = rest := by simpa using h
      obtain ⟨ht, hrest⟩ := stop_of_takeWhile_append htake hdrop
      exact .gap hword hdigit hgap ht hrest
    next hgap =>
      have hgap : isGap c = false := by simpa using hgap
      obtain ⟨rfl, rfl⟩ : LexemeKind.other = kind ∧ [] = t := by simpa [and_assoc] using h
      exact .other hword hdigit hgap
  · intro h
    cases h with
    | word hstart ht hrest =>
      obtain ⟨htake, hdrop⟩ := takeWhile_append_of_stop ht hrest
      rw [if_pos hstart, htake, hdrop]
    | number hword hstart hds hf hrest hfraction =>
      rw [if_neg (by simp [hword]), if_pos hstart, splitNumber_of_stop hds hf hrest hfraction]
    | gap hword hdigit hstart ht hrest =>
      obtain ⟨htake, hdrop⟩ := takeWhile_append_of_stop ht hrest
      rw [if_neg (by simp [hword]), if_neg (by simp [hdigit]), if_pos hstart, htake, hdrop]
    | other hword hdigit hgap =>
      rw [if_neg (by simp [hword]), if_neg (by simp [hdigit]), if_neg (by simp [hgap])]
      rfl

theorem IsFraction.isDigit_or_point {f : Text} (h : IsFraction Char.isDigit f) :
    ∀ a ∈ f, a.isDigit = true ∨ a = '.' := by
  rcases h with rfl | ⟨d, ds, hds, rfl⟩
  · simp
  · exact List.forall_mem_cons.mpr ⟨Or.inr rfl, fun a ha => Or.inl (hds a ha)⟩

/-- A leading lexeme that begins with a plain character. -/
theorem leads_plain_iff {kind : LexemeKind} {c : Char} {t rest : Text} (hc : isPlain c = true) (hfeed : c ≠ '\n') :
    Lexeme.Leads ⟨kind, c :: t⟩ rest ↔ PlainCut rest kind c t := by
  rw [← nextLexeme_plain_iff hc]
  constructor
  · rintro ⟨c', t', htext, -, hnext⟩
    obtain ⟨rfl, rfl⟩ := List.cons.inj htext
    exact hnext
  · exact fun hnext => ⟨c, t, rfl, hfeed, hnext⟩

theorem Lexeme.Leads.plainCut {kind : LexemeKind} {c : Char} {t rest : Text} (h : Lexeme.Leads ⟨kind, c :: t⟩ rest)
    (hplain : ∀ a ∈ c :: t, isPlain a = true) (hfeed : '\n' ∉ c :: t) : PlainCut rest kind c t :=
  (leads_plain_iff (hplain c (by simp)) fun hc => hfeed (by simp [hc])).mp h

/-! ### Texts that stop the same lexemes -/

/-- What a lexeme in front of `rest` can be stopped by stops it in front of `rest'` too. -/
structure StopsLike (rest rest' : Text) : Prop where
  /-- No other character comes first. -/
  head : ∀ c ∈ rest'.head?, c ∈ rest.head?
  fraction : (splitFraction Char.isDigit rest).1 = [] → (splitFraction Char.isDigit rest').1 = []
  comment : startsComment rest = false → startsComment rest' = false
  quote : ∀ quote, isQuote quote = true → closeString? quote rest = none → closeString? quote rest' = none

theorem splitFraction_eq_nil_iff {p : Char → Bool} {t : Text} :
    (splitFraction p t).1 = [] ↔ ∀ u, t = '.' :: u → startsWithOrEnds (!p ·) u = true := by
  unfold splitFraction
  split
  next u =>
    split
    next hstart => simpa using hstart
    next hstart => simpa using hstart
  next h => simpa using fun u hu => absurd hu (h u)

namespace StopsLike

variable {rest rest' : Text}

theorem startsWithOrEnds (h : StopsLike rest rest') {p : Char → Bool}
    (hrest : startsWithOrEnds p rest = true) : PickIndent.startsWithOrEnds p rest' = true :=
  startsWithOrEnds_iff.mpr fun c hc => startsWithOrEnds_iff.mp hrest c (h.head c hc)

/-- Nothing follows: a text is stopped by everything that stops it in front of more. -/
theorem of_isPrefix (h : rest' <+: rest) : StopsLike rest rest' where
  head c hc := by
    obtain ⟨u, rfl⟩ := h
    rw [List.head?_append, hc]
    rfl
  fraction hrest := by
    rw [splitFraction_eq_nil_iff] at hrest ⊢
    rintro u rfl
    obtain ⟨v, rfl⟩ := h
    exact startsWithOrEnds_of_isPrefix (List.prefix_append u v) (hrest (u ++ v) rfl)
  comment hrest := by
    rw [← Bool.not_eq_true] at hrest ⊢
    refine mt (fun hstart => ?_) hrest
    obtain ⟨gap, u, hgap, rfl⟩ := exists_gap_of_startsComment hstart
    obtain ⟨v, rfl⟩ := h
    rw [List.append_assoc, startsComment_gap hgap]
    rfl
  quote q hq hrest := by
    rw [Option.eq_none_iff_forall_ne_some]
    rintro ⟨body, later⟩ hclose
    obtain ⟨inside, hinside, rfl⟩ := exists_inside hclose
    obtain ⟨v, rfl⟩ := h
    have hlonger := closeString?_inside hq hinside (later ++ v)
    rw [← closeString?_append hclose] at hrest
    simp [hlonger] at hrest

theorem plainCut (h : StopsLike rest rest') {kind : LexemeKind} {c : Char} {t : Text} (hcut : PlainCut rest kind c t) :
    PlainCut rest' kind c t := by
  cases hcut with
  | word hstart ht hrest => exact .word hstart ht (h.startsWithOrEnds hrest)
  | number hword hstart hds hf hrest hfraction =>
    exact .number hword hstart hds hf (h.startsWithOrEnds hrest) fun hnil => h.fraction (hfraction hnil)
  | gap hword hdigit hstart ht hrest => exact .gap hword hdigit hstart ht (h.startsWithOrEnds hrest)
  | other hword hdigit hgap => exact .other hword hdigit hgap

end StopsLike

/-- **A lexeme leads in front of every text that stops it.** -/
theorem Lexeme.Leads.mono {x : Lexeme} {rest rest' : Text} (h : x.Leads rest) (hstops : StopsLike rest rest') :
    x.Leads rest' := by
  have hcut := h.cut
  cases hcut with
  | string hquote hinside => exact leads_string hquote hinside rest'
  | comment hcomment hrest => exact leads_comment hcomment (hstops.startsWithOrEnds hrest)
  | loneQuote hquote hclose => exact leads_loneQuote hquote (hstops.quote _ hquote hclose)
  | semicolon hstart => exact leads_semicolon (hstops.comment hstart)
  | plain hstring hcomment hplain hfeed =>
    refine (leads_plain_iff (hplain _ (by simp)) fun hc => hfeed (by simp [hc])).mpr ?_
    exact hstops.plainCut (h.plainCut hplain hfeed)

/-- **Lexemes at the beginning are lexed without those behind them.** -/
theorem lex_spell_of_append_right {xs ys : List Lexeme} (h : lex (spell (xs ++ ys)) = .ok (xs ++ ys)) :
    lex (spell xs) = .ok xs := by
  induction xs with
  | nil => exact lex_nil
  | cons x xs ih =>
    obtain ⟨hx, hlater⟩ := lex_spell_cons_iff.mp h
    have hprefix : spell xs <+: spell (xs ++ ys) := by
      rw [spell_append]
      exact List.prefix_append _ _
    exact lex_spell_cons_iff.mpr ⟨hx.mono (.of_isPrefix hprefix), ih hlater⟩

end PickIndent
