import PickIndent.Proofs.Classification.Bare
import PickIndent.Proofs.Lexeme.Emptied
import PickIndent.Proofs.Text.Pieces

/-!
# Semicolons — an empty statement at the end of a line

A semicolon at the end of a line adds an empty statement.  The clauses and the statements of the line are found as
before, whatever blanks stand before the semicolon.  Its keyword is not found any more if it is all of the code and
the semicolon stands right behind it, for nothing but a blank, a parenthesis or the end may follow a keyword.  Behind
any other line without a comment the semicolon does not show in the nesting (`classify_semicolon_iff`).
-/

namespace PickIndent

/-! ### Keywords -/

/-- Whether code is the keyword and nothing else. -/
def Keyword.IsWhole (d : Dialect) (code : Text) (k : Keyword) : Prop :=
  dropWords? (letter d.ignoreCase) k.words code = some []

instance (d : Dialect) (code : Text) (k : Keyword) : Decidable (k.IsWhole d code) :=
  inferInstanceAs (Decidable (_ = _))

section Code

variable {d : Dialect} {code gap : Text} {k : Keyword}

theorem not_isCapital_of_gap (ignoreCase : Bool) (hgap : isBlankText gap = true) :
    ∀ c ∈ gap ++ [';'], IsCapital (letter ignoreCase) c = false := by
  have hsemicolon : IsCapital (letter ignoreCase) ';' = false := by cases ignoreCase <;> decide
  exact List.forall_mem_append.mpr
    ⟨fun c hc => isCapital_of_isBlank ignoreCase (isBlankText_iff.mp hgap c hc), by simpa using hsemicolon⟩

theorem endsKeyword_gap (hgap : isBlankText gap = true) :
    startsWithOrEnds Keyword.endsKeyword (gap ++ [';']) = true ↔ gap ≠ [] := by
  cases gap with
  | nil => simpa [startsWithOrEnds] using (by decide : Keyword.endsKeyword ';' = false)
  | cons c gap => simp [startsWithOrEnds, Keyword.endsKeyword, isBlankText_iff.mp hgap c (by simp)]

namespace Keyword

theorem dropWords?_semicolon (hlast : ∀ c ∈ code.getLast?, isBlank c = false) (hgap : isBlankText gap = true) :
    dropWords? (letter d.ignoreCase) k.words (code ++ (gap ++ [';'])) =
      (dropWords? (letter d.ignoreCase) k.words code).map (· ++ (gap ++ [';'])) :=
  dropWords?_append k.words_ne_nil k.capitalised hlast (not_isCapital_of_gap d.ignoreCase hgap)

/-- A keyword that is all of the code fits no more when a semicolon stands right behind it, and every other fits
that fitted before. -/
theorem fits_semicolon_iff (hlast : ∀ c ∈ code.getLast?, isBlank c = false) (hgap : isBlankText gap = true) :
    fits d (code ++ (gap ++ [';'])) k = true ↔ fits d code k = true ∧ (k.IsWhole d code → gap ≠ []) := by
  rw [fits_iff, fits_iff, dropWords?_semicolon hlast hgap, IsWhole]
  cases hdrop : dropWords? (letter d.ignoreCase) k.words code with
  | none => simp
  | some rest =>
    cases rest with
    | nil => simpa [startsWithOrEnds] using endsKeyword_gap hgap
    | cons c rest => simp [startsWithOrEnds]

theorem find?_semicolon (hlast : ∀ c ∈ code.getLast?, isBlank c = false) (hgap : isBlankText gap = true)
    (h : gap ≠ [] ∨ ∀ k, ¬IsWhole d code k) : find? d (code ++ (gap ++ [';'])) = find? d code := by
  rw [find?, find?]
  congr 1
  funext k
  have hwhole : k.IsWhole d code → gap ≠ [] := fun hk => h.resolve_right fun hnone => hnone k hk
  rw [Bool.eq_iff_iff, fits_semicolon_iff hlast hgap]
  exact and_iff_left hwhole

/-- The keyword that is all of the code is the one that is found. -/
theorem isWhole_of_find? {l : Keyword} (hl : l.IsWhole d code) (hfind : find? d code = some k) : k.IsWhole d code := by
  have hfits : fits d code l = true := fits_iff.mpr ⟨[], hl, rfl⟩
  have hfront := words_isPrefix_of_find? hfind hfits
  obtain ⟨r, hr, hrEnd⟩ := fits_iff.mp (List.find?_some hfind)
  have hwords : l.words = k.words := by
    rcases comparable_of_dropWords? hl rfl hr hrEnd with ⟨-, hmore⟩ | ⟨hback, -⟩
    · by_contra hne
      exact hmore hne rfl
    · exact hfront.eq_of_length_le hback.length_le
  rwa [IsWhole, ← hwords]

/-- **A semicolon right behind a keyword hides it** where it is all of the code. -/
theorem find?_semicolon_ne (hlast : ∀ c ∈ code.getLast?, isBlank c = false) (hk : k.IsWhole d code) :
    find? d (code ++ [';']) ≠ find? d code := by
  intro hsame
  cases hfind : find? d code with
  | none => exact absurd (fits_iff.mpr ⟨[], hk, rfl⟩) (by simpa using List.find?_eq_none.mp hfind k k.mem_table)
  | some l =>
    have hfits : fits d (code ++ ([] ++ [';'])) l = true := List.find?_some (hsame.trans hfind)
    exact ((fits_semicolon_iff hlast rfl).mp hfits).2 (isWhole_of_find? hk hfind) rfl

end Keyword

/-! ### Clauses and statements -/

theorem dropSemicolon_concat (t : Text) : dropSemicolon (t ++ [';']) = t := by
  rw [dropSemicolon, List.getLast?_concat, if_pos rfl, List.dropLast_concat]

theorem dropSemicolon_of_last (h : code.getLast? ≠ some ';') : dropSemicolon code = code := if_neg h

theorem endsOpen_semicolon (hgap : isBlankText gap = true) (hlast : code.getLast? ≠ some ';') :
    endsOpen d (code ++ gap ++ [';']) = endsOpen d code := by
  rw [endsOpen, endsOpen, dropSemicolon_concat, dropSemicolon_of_last hlast, trimEnd_append_of_blank hgap]

theorem holdsStatements_semicolon (hgap : isBlankText gap = true) (hlast : code.getLast? ≠ some ';') :
    holdsStatements (code ++ gap ++ [';']) = holdsStatements code := by
  have hnot : ';' ∉ gap := not_mem_of_isBlankText hgap (by decide)
  rw [holdsStatements, holdsStatements, dropSemicolon_concat, dropSemicolon_of_last hlast, Bool.eq_iff_iff,
    List.contains_iff_mem, List.contains_iff_mem, List.mem_append]
  exact or_iff_left hnot

theorem statements_semicolon (hgap : isBlankText gap = true) : statements (code ++ gap ++ [';']) = statements code := by
  have hnot : ';' ∉ gap := not_mem_of_isBlankText hgap (by decide)
  obtain ⟨front, last, hsplit⟩ := exists_splitOn_append ';' code
  have hcode := hsplit [] (by simp)
  rw [List.append_nil, List.append_nil] at hcode
  rw [statements, statements, List.splitOn_append_cons_self, List.splitOn_nil, hsplit gap hnot, hcode]
  simp [List.filter_cons, trim_append_of_blank_right hgap, show trim [] = [] from rfl]

theorem opensBlock_semicolon (hgap : isBlankText gap = true) (hlast : code.getLast? ≠ some ';') :
    opensBlock d (code ++ gap ++ [';']) k = opensBlock d code k := by
  rw [opensBlock, opensBlock, closesItself, closesItself, statements_semicolon hgap, endsOpen_semicolon hgap hlast,
    holdsStatements_semicolon hgap hlast]

/-! ### Codes -/

theorem code_classifyCode (d : Dialect) (code : Text) : (classifyCode d code).code = code := by
  unfold classifyCode
  cases Keyword.find? d code <;> rfl

theorem keyword_classifyCode (d : Dialect) (code : Text) : (classifyCode d code).keyword = Keyword.find? d code := by
  unfold classifyCode
  cases Keyword.find? d code <;> rfl

/-- **A semicolon behind code does not show in its effect exactly if the code is not a keyword or there is a blank
before the semicolon.** -/
theorem classifyCode_semicolon_iff (hblank : ∀ c ∈ code.getLast?, isBlank c = false)
    (hlast : code.getLast? ≠ some ';') (hgap : isBlankText gap = true) :
    (classifyCode d (code ++ (gap ++ [';']))).SameEffect (classifyCode d code) ↔
      gap ≠ [] ∨ ∀ k, ¬Keyword.IsWhole d code k := by
  constructor
  · intro h
    by_contra hnot
    obtain ⟨hnil, k, hk⟩ : gap = [] ∧ ∃ k, Keyword.IsWhole d code k := by simpa [not_or] using hnot
    have hsame := h.keyword
    rw [keyword_classifyCode, keyword_classifyCode, hnil] at hsame
    exact Keyword.find?_semicolon_ne hblank hk hsame
  · intro h
    rw [classifyCode, classifyCode, Keyword.find?_semicolon hblank hgap h]
    cases Keyword.find? d code with
    | none => exact ⟨rfl, rfl, rfl, rfl⟩
    | some k =>
      simp only [← List.append_assoc, opensBlock_semicolon hgap hlast, closesItself, statements_semicolon hgap]
      exact ⟨rfl, rfl, rfl, rfl⟩

end Code

/-! ### Bare text and what stands before it -/

theorem Lexeme.Cut.getLast?_emptied {x : Lexeme} {rest : Text} (h : x.Cut rest) :
    x.emptied.text.getLast? = x.text.getLast? := by
  rcases h.string_or_not with ⟨kind, quote, inside, rfl, hquote, -⟩ | hstring
  · rw [Lexeme.emptied_string hquote, ← List.cons_append, List.getLast?_concat]
    rfl
  · rw [Lexeme.emptied_of_not_isString hstring]

/-- Where there is no comment, the bare text ends in the last character of the text. -/
theorem Lexed.getLast?_bare {xs : List Lexeme} (h : Lexed [] xs) (hcomment : ∀ x ∈ xs, x.kind ≠ .comment) :
    (bare (spell xs)).getLast? = (spell xs).getLast? := by
  induction h with
  | nil => rw [spell, List.flatMap_nil, bare_nil]
  | @cons x xs hx _ ih =>
    rw [List.append_nil] at hx
    obtain ⟨hkind, hlater⟩ := List.forall_mem_cons.mp hcomment
    rw [spell_cons, hx.bare_append hkind, List.getLast?_append, List.getLast?_append, ih hlater, hx.getLast?_emptied]

theorem bare_append_semicolon {t : Text} (hcomment : trailingComment? t = .ok none) :
    bare (t ++ [';']) = bare t ++ [';'] ∧ (bare t).getLast? = t.getLast? := by
  obtain ⟨xs, hlex, hnone⟩ := map_eq_ok_iff.mp hcomment
  obtain ⟨hlexed, rfl⟩ := lex_eq_ok hlex
  have hkinds : ∀ x ∈ xs, x.kind ≠ .comment := by simpa using hnone
  refine ⟨?_, hlexed.getLast?_bare hkinds⟩
  rw [hlexed.bare_append hkinds (List.forall_mem_singleton.mpr (by decide)) (by decide), bare_semicolon rfl, bare_nil]

theorem isDirective_append_semicolon {t : Text} (h : isDirective t = false) : isDirective (t ++ [';']) = false := by
  rw [← Bool.not_eq_true] at h ⊢
  intro hmark
  obtain ⟨s, u, hs, ht⟩ := isDirective_iff.mp hmark
  rcases List.eq_nil_or_concat u with rfl | ⟨u, c, rfl⟩
  · rw [List.append_nil] at ht
    exact absurd (List.append_inj_right' ht rfl) (by decide)
  · rw [List.concat_eq_append, ← List.append_assoc] at ht
    exact h (isDirective_iff.mpr ⟨s, u, hs, List.append_inj_left' ht rfl⟩)

/-- A label of the line with the semicolon is one of the line, with a blank behind it. -/
theorem exists_label_of_semicolon {t l : Text} (h : label? (t ++ [';']) = some l) :
    ∃ s v, isBlankText s = true ∧ IsLabel l ∧ startsWithOrEnds isBlank v = true ∧ v ≠ [] ∧ t = s ++ (l ++ v) := by
  obtain ⟨s, v, hs, hl, hv, ht⟩ := exists_label_append h
  rcases List.eq_nil_or_concat v with rfl | ⟨v, c, rfl⟩
  · -- a semicolon belongs to no label
    rw [List.append_nil] at ht
    have hlast : l.getLast? = some ';' := by
      have hend := congrArg List.getLast? ht
      rw [List.getLast?_concat, List.getLast?_append_of_ne_nil _ hl.ne_nil] at hend
      exact hend.symm
    exact absurd (hl.isLabelChar ';' (List.mem_of_getLast? hlast)) (by decide +kernel)
  · rw [List.concat_eq_append] at ht hv
    rw [← List.append_assoc, ← List.append_assoc] at ht
    obtain ⟨ht, hc⟩ := List.append_inj' ht rfl
    have hne : v ≠ [] := by
      rintro rfl
      obtain rfl := (List.cons.inj hc).1
      exact absurd hv (by decide)
    obtain ⟨a, v, rfl⟩ := List.exists_cons_of_ne_nil hne
    exact ⟨s, a :: v, hs, hl, hv, hne, by rw [ht, List.append_assoc]⟩

/-- Before the code of a line and of the line with the semicolon stands the same, unless the line is a label only. -/
theorem exists_front_semicolon (t : Text) :
    (∃ s l, isBlankText s = true ∧ IsLabel l ∧ t = s ++ l ∧ label? (t ++ [';']) = none) ∨
    ∃ front u, (∀ c ∈ front, isPlain c = true) ∧ t = front ++ u ∧ dropLabel t = trim u ∧
      dropLabel (t ++ [';']) = trim (u ++ [';']) := by
  cases hlabel' : label? (t ++ [';']) with
  | some l =>
    obtain ⟨s, v, hs, hl, hv, hne, rfl⟩ := exists_label_of_semicolon hlabel'
    have hv' : startsWithOrEnds isBlank (v ++ [';']) = true := by
      obtain ⟨a, v, rfl⟩ := List.exists_cons_of_ne_nil hne
      exact hv
    have htail : s ++ (l ++ v) ++ [';'] = s ++ (l ++ (v ++ [';'])) := by simp
    exact Or.inr ⟨s ++ l, v, hl.plain hs, by simp, (label?_append hs hl hv).2, by rw [htail, (label?_append hs hl hv').2]⟩
  | none =>
    cases hlabel : label? t with
    | none =>
      exact Or.inr ⟨[], t, by simp, rfl, dropLabel_of_label?_eq_none hlabel, dropLabel_of_label?_eq_none hlabel'⟩
    | some l =>
      obtain ⟨s, v, hs, hl, hv, rfl⟩ := exists_label_append hlabel
      cases v with
      | nil => exact Or.inl ⟨s, l, hs, hl, by simp, rfl⟩
      | cons a v =>
        have htail : s ++ (l ++ a :: v) ++ [';'] = s ++ (l ++ (a :: v ++ [';'])) := by simp
        have hv' : startsWithOrEnds isBlank (a :: v ++ [';']) = true := hv
        rw [htail, (label?_append hs hl hv').1] at hlabel'
        simp at hlabel'

/-! ### Lines -/

theorem trimmed_semicolon : Trimmed [';'] := trimmed_of_isBlank (List.forall_mem_singleton.mpr (by decide))

/-- Trimmed, a text keeps the blanks before a semicolon that is put behind it, if anything stands before them. -/
theorem exists_trim_semicolon (t : Text) : ∃ gap, isBlankText gap = true ∧ trim (t ++ [';']) = trim t ++ (gap ++ [';']) ∧
    (trim t ≠ [] → (gap ≠ [] ↔ ∃ c ∈ t.getLast?, isBlank c = true)) := by
  have hmark := trimmed_semicolon
  by_cases hblank : trim t = []
  · refine ⟨[], rfl, ?_, fun hne => absurd hblank hne⟩
    rw [trim_append_of_blank_left (trim_eq_nil_iff.mp hblank), hmark.trim_eq, hblank]
    rfl
  · obtain ⟨s, gap, hs, hgap, ht⟩ := exists_append_trim_append t
    have htrimmed : Trimmed (trim t ++ gap ++ [';']) :=
      Trimmed.splice (u := []) (by simpa using trimmed_trim t) hmark hblank (List.cons_ne_nil _ _)
    refine ⟨gap, hgap, ?_, fun _ => ?_⟩
    · conv_lhs => rw [ht]
      rw [List.append_assoc, List.append_assoc, trim_append_of_blank_left hs, ← List.append_assoc, htrimmed.trim_eq,
        List.append_assoc]
    · rw [ht, List.getLast?_append, List.getLast?_append]
      cases hlast : gap.getLast? with
      | none =>
        rw [List.getLast?_eq_none_iff.mp hlast]
        have hend : ∀ c ∈ ([] : Text).getLast?.or ((trim t).getLast?.or s.getLast?), isBlank c = false := by
          rw [List.getLast?_eq_some_getLast hblank]
          simpa using (trimmed_trim t).last _ (List.getLast?_eq_some_getLast hblank)
        simpa using hend
      | some c =>
        have hc : isBlank c = true := isBlankText_iff.mp hgap c (List.mem_of_getLast? hlast)
        have hne : gap ≠ [] := List.ne_nil_of_mem (List.mem_of_getLast? hlast)
        simp [hne, hc]

theorem Keyword.not_isWhole_nil (d : Dialect) (k : Keyword) : ¬k.IsWhole d [] := by
  rw [IsWhole, dropWords?_of_not_capital k.words_ne_nil k.capitalised (by simp)]
  simp

theorem Keyword.find?_label_semicolon {l : Text} (hl : IsLabel l) (d : Dialect) : find? d (l ++ [';']) = none := by
  have hblank : ∀ c ∈ l.getLast?, isBlank c = false := hl.trimmed.last
  refine List.find?_eq_none.mpr fun k hk hfits => ?_
  have hlabel : fits d l k = true := ((fits_semicolon_iff hblank isBlankText_nil).mp hfits).1
  exact List.find?_eq_none.mp (find?_of_isLabel hl d) k hk hlabel

/-- Code of a line that is a label with a semicolon right behind it. -/
theorem trim_bare_label_semicolon {s l : Text} (hs : isBlankText s = true) (hl : IsLabel l)
    (hlabel : label? (s ++ l ++ [';']) = none) : trim (bare (dropLabel (s ++ l ++ [';']))) = l ++ [';'] := by
  have htrimmed : Trimmed (l ++ [] ++ [';']) :=
    Trimmed.splice (u := []) (by simpa using hl.trimmed) trimmed_semicolon hl.ne_nil (List.cons_ne_nil _ _)
  rw [List.append_nil] at htrimmed
  rw [dropLabel_of_label?_eq_none hlabel, trim_bare_trim, bare_plain_append (hl.plain hs), bare_semicolon rfl,
    bare_nil, List.append_assoc, trim_append_of_blank_left hs, htrimmed.trim_eq]

/-- **A semicolon at the end of a line without a comment does not show in the nesting exactly if the line is not a
keyword with the semicolon right behind it.** -/
theorem classify_semicolon_iff (d : Dialect) {t : Text} (hfeed : '\n' ∉ t) (hdirective : isDirective t = false)
    (hcomment : trailingComment? t = .ok none) :
    ∃ c c', classify d t = .ok c ∧ classify d (t ++ [';']) = .ok c' ∧
      (c.code.getLast? ≠ some ';' →
        (c'.SameEffect c ↔ (∀ k, ¬Keyword.IsWhole d c.code k) ∨ ∃ a ∈ t.getLast?, isBlank a = true)) := by
  have hfeed' : '\n' ∉ t ++ [';'] := by simp [hfeed]
  refine ⟨_, _, classify_eq d hfeed hdirective, classify_eq d hfeed' (isDirective_append_semicolon hdirective), ?_⟩
  rw [code_classifyCode]
  intro hsemicolon
  obtain ⟨hbare, hend⟩ := bare_append_semicolon hcomment
  rcases exists_front_semicolon t with ⟨s, l, hs, hl, rfl, hlabel⟩ | ⟨front, u, hfront, rfl, hcode, hcode'⟩
  · -- the line is a label, and the semicolon makes it a line without a keyword
    have hnil : dropLabel (s ++ l) = [] := by
      rw [← List.append_nil l, (label?_append hs hl rfl).2]
      rfl
    rw [hnil, trim_bare_label_semicolon hs hl hlabel, bare_nil, show trim [] = [] from rfl,
      classifyCode_of_none (Keyword.find?_label_semicolon hl d), classifyCode_of_none (Keyword.find?_nil d)]
    exact ⟨fun _ => Or.inl (Keyword.not_isWhole_nil d), fun _ => ⟨rfl, rfl, rfl, rfl⟩⟩
  · rw [List.append_assoc, bare_plain_append hfront, bare_plain_append hfront, List.append_assoc] at hbare
    have hrest : bare (u ++ [';']) = bare u ++ [';'] := List.append_cancel_left hbare
    obtain ⟨gap, hgap, htrim, hlast⟩ := exists_trim_semicolon (bare u)
    rw [hcode, trim_bare_trim] at hsemicolon ⊢
    rw [hcode', trim_bare_trim, hrest, htrim,
      classifyCode_semicolon_iff (trimmed_trim (bare u)).last hsemicolon hgap, or_comm]
    by_cases hnil : trim (bare u) = []
    · rw [hnil]
      exact ⟨fun _ => Or.inl (Keyword.not_isWhole_nil d), fun _ => Or.inl (Keyword.not_isWhole_nil d)⟩
    · have hne : bare u ≠ [] := by
        intro h
        rw [h] at hnil
        exact hnil rfl
      rw [hlast hnil, ← hend, bare_plain_append hfront, List.getLast?_append_of_ne_nil _ hne]

theorem classify_semicolon_iff_clause :
    let t := "10 IF X = \";*\" THEN".toList
    '\n' ∉ t ∧ isDirective t = false ∧ trailingComment? t = .ok none ∧
      ∃ c c', classify {} t = .ok c ∧ classify {} (t ++ [';']) = .ok c' ∧ c.opens = true ∧ c'.SameEffect c := by
  intro t
  let classification : Classification :=
    { keyword := some (.clause .ifTest), opens := true, closes := false, code := "IF X = \"\" THEN".toList }
  have hfeed : '\n' ∉ t := by decide
  have hdirective : isDirective t = false := by decide +kernel
  have hcomment : trailingComment? t = .ok none := by decide +kernel
  have hclassify : classify {} t = .ok classification := by decide +kernel
  have hnone : ∀ k, ¬Keyword.IsWhole {} classification.code k := by
    have hall : ∀ k ∈ Keyword.table, ¬k.IsWhole {} classification.code := by decide +kernel
    exact fun k => hall k k.mem_table
  obtain ⟨c, c', hc, hc', hexact⟩ := classify_semicolon_iff {} hfeed hdirective hcomment
  obtain rfl : c = classification := Except.ok.inj (hc.symm.trans hclassify)
  exact ⟨hfeed, hdirective, hcomment, classification, c', hc, hc', rfl, (hexact (by decide)).mpr (Or.inl hnone)⟩

/-- A semicolon right behind a keyword that is all of the line takes the line its keyword. -/
theorem semicolon_hides_keyword :
    let t := "END".toList
    let c : Classification := { keyword := some .blockEnd, opens := false, closes := true, code := t }
    let c' : Classification := { keyword := none, opens := false, closes := false, code := t ++ [';'] }
    '\n' ∉ t ∧ isDirective t = false ∧ trailingComment? t = .ok none ∧ lex t = .ok [⟨.word, t⟩] ∧
      t.getLast? ≠ some ';' ∧ classify {} t = .ok c ∧ classify {} (t ++ [';']) = .ok c' ∧ ¬c'.SameEffect c := by
  intro t c c'
  have hclassify : classify {} t = .ok c ∧ classify {} (t ++ [';']) = .ok c' := by decide +kernel
  exact ⟨by decide, by decide +kernel, by decide +kernel, by decide +kernel, by decide, hclassify.1, hclassify.2,
    fun h => absurd h.keyword (by decide)⟩

end PickIndent
