import PickIndent.Proofs.Classification.Lines
import PickIndent.Proofs.Keyword.Words
import PickIndent.Proofs.Label.Line
import PickIndent.Proofs.Lexeme.Bare

/-!
# Classification by the bare text — the label before or after the code

A line is classified by the code of what stands behind its label.  The label can as well be taken off the bare
text of the whole line (`classify_bare`), so that the bare text decides everything.  The two differ on a label
that a comment follows without a blank between them, where the line has no label and its bare text has one; but
no keyword looks like a label (`Keyword.find?_of_isLabel`).
-/

namespace PickIndent

/-! ### No keyword looks like a label -/

/-- Neither a colon nor a digit is a variant of a capital. -/
theorem isUpper_letter {c : Char} (hc : c = ':' ∨ isDecimalDigit c = true) (ignoreCase : Bool) :
    (letter ignoreCase c).isUpper = false := by
  rcases hc with rfl | hc
  · cases ignoreCase <;> decide
  · have hlong : c ≠ '\u017f' := ne_of_class hc (by decide +kernel)
    have hkelvin : c ≠ '\u212a' := ne_of_class hc (by decide +kernel)
    have hdotted : c ≠ '\u0130' := ne_of_class hc (by decide +kernel)
    have hdotless : c ≠ '\u0131' := ne_of_class hc (by decide +kernel)
    have hcapital : capital c = c := by
      rw [capital, if_neg hlong, if_neg hkelvin, if_neg (by simp [hdotted, hdotless]),
        toUpper_of_isDecimalDigit hc]
    have hletter : letter ignoreCase c = c := by
      cases ignoreCase
      · rfl
      · exact hcapital
    rw [hletter, isUpper_of_isDecimalDigit hc]

theorem endsKeyword_of_isLabelChar {c : Char} (h : isLabelChar c = true) : Keyword.endsKeyword c = false := by
  have hparen : c ≠ '(' := ne_of_class h (by decide +kernel)
  simp [Keyword.endsKeyword, isBlank_of_isLabelChar h, hparen]

/-- No word spelled in capitals is a label, and none stands before something that may follow a keyword. -/
theorem IsLabel.not_dropWords? {l : Text} (hl : IsLabel l) {ignoreCase : Bool} {words : List Text}
    (hne : words ≠ []) (hupper : (words.all fun w => w.all Char.isUpper) = true) {rest : Text}
    (h : dropWords? (letter ignoreCase) words l = some rest) :
    startsWithOrEnds Keyword.endsKeyword rest = false := by
  match words, hne with
  | [w], _ =>
    obtain ⟨u, rfl, hmap⟩ := exists_of_dropFront?_eq_some h
    cases rest with
    | nil =>
      -- the word would be the label, with its colon or its digit
      obtain ⟨c, hc, hmark⟩ := hl.exists_mark
      have hmem : letter ignoreCase c ∈ w := by
        rw [← hmap]
        exact List.mem_map_of_mem (by simpa using hc)
      have hcapital := List.all_eq_true.mp (List.all_eq_true.mp hupper w (by simp)) _ hmem
      rw [isUpper_letter hmark] at hcapital
      exact Bool.noConfusion hcapital
    | cons c rest => exact endsKeyword_of_isLabelChar (hl.isLabelChar c (by simp))
  | w :: w' :: words, _ =>
    -- a blank would have to separate the words
    rw [dropWords?] at h
    · split at h
      next c later hdrop =>
        obtain ⟨u, rfl, -⟩ := exists_of_dropFront?_eq_some hdrop
        rw [if_neg (by simp [isBlank_of_isLabelChar (hl.isLabelChar c (by simp))])] at h
        simp at h
      next => simp at h
    · exact List.cons_ne_nil w' words

theorem Keyword.find?_of_isLabel {l : Text} (hl : IsLabel l) (d : Dialect) : Keyword.find? d l = none := by
  refine List.find?_eq_none.mpr fun k _ hfits => ?_
  unfold Keyword.fits at hfits
  split at hfits
  next rest hdrop =>
    rw [hl.not_dropWords? k.words_ne_nil k.all_isUpper_words hdrop] at hfits
    exact Bool.noConfusion hfits
  next => exact Bool.noConfusion hfits

theorem Keyword.find?_nil (d : Dialect) : Keyword.find? d [] = none := rfl

/-! ### The bare text of a directive -/

theorem isDirective_iff {t : Text} :
    isDirective t = true ↔ ∃ s u, isBlankText s = true ∧ t = s ++ ['!'] ++ u := by
  rw [isDirective, beq_iff_eq]
  constructor
  · intro h
    obtain ⟨s, u, hs, -, ht⟩ := exists_append_trim_append t
    obtain ⟨v, hv⟩ := List.head?_eq_some_iff.mp h
    exact ⟨s, v ++ u, hs, by rw [hv] at ht; simpa using ht⟩
  · rintro ⟨s, u, hs, rfl⟩
    have hmark : isBlank '!' = false := by decide
    have hstart : trimStart ('!' :: u) = '!' :: u := List.dropWhile_cons_of_neg (by simp [hmark])
    rw [List.append_assoc, trim_append_of_blank_left hs, trim, List.singleton_append, hstart]
    obtain ⟨v, hv⟩ := trimEnd_isPrefix ('!' :: u)
    cases hend : trimEnd ('!' :: u) with
    | nil => simp [trimEnd_eq_nil_iff, isBlankText, hmark] at hend
    | cons c w =>
      rw [hend] at hv
      rw [(List.cons.inj hv).1]
      rfl

theorem isDirective_bare (t : Text) : isDirective (bare t) = isDirective t := by
  have plain_mark : ∀ {s : Text}, isBlankText s = true → ∀ c ∈ s ++ ['!'], isPlain c = true := by
    intro s hs c hc
    rcases List.mem_append.mp hc with hc | hc
    · exact plain_of_isBlankText hs c hc
    · rw [List.mem_singleton.mp hc]
      decide
  rw [Bool.eq_iff_iff, isDirective_iff, isDirective_iff]
  constructor
  · rintro ⟨s, u, hs, hbare⟩
    obtain ⟨v, rfl, -⟩ := exists_of_bare_eq_append (plain_mark hs) hbare
    exact ⟨s, v, hs, rfl⟩
  · rintro ⟨s, u, hs, rfl⟩
    exact ⟨s, bare u, hs, bare_plain_append (plain_mark hs) u⟩

/-! ### The label of the bare text -/

/-- Two classifications that do the same to the nesting. -/
structure Classification.SameEffect (a b : Classification) : Prop where
  keyword : a.keyword = b.keyword
  opens : a.opens = b.opens
  closes : a.closes = b.closes
  oneLine : a.oneLine = b.oneLine

theorem Classification.SameEffect.refl (a : Classification) : a.SameEffect a := ⟨rfl, rfl, rfl, rfl⟩

theorem Classification.SameEffect.symm {a b : Classification} (h : a.SameEffect b) : b.SameEffect a :=
  ⟨h.keyword.symm, h.opens.symm, h.closes.symm, h.oneLine.symm⟩

theorem Classification.SameEffect.trans {a b c : Classification} (hab : a.SameEffect b) (hbc : b.SameEffect c) :
    a.SameEffect c :=
  ⟨hab.keyword.trans hbc.keyword, hab.opens.trans hbc.opens, hab.closes.trans hbc.closes,
    hab.oneLine.trans hbc.oneLine⟩

theorem classifyCode_of_none {d : Dialect} {code : Text} (h : Keyword.find? d code = none) :
    classifyCode d code = { keyword := none, opens := false, closes := false, code } := by
  rw [classifyCode, h]

theorem isPlain_of_isLabelChar {c : Char} (h : isLabelChar c = true) : isPlain c = true :=
  isPlain_eq.mpr ⟨ne_of_class h (by decide +kernel), ne_of_class h (by decide +kernel),
    ne_of_class h (by decide +kernel)⟩

theorem IsLabel.plain {s l : Text} (hs : isBlankText s = true) (hl : IsLabel l) :
    ∀ c ∈ s ++ l, isPlain c = true := by
  intro c hc
  rcases List.mem_append.mp hc with hc | hc
  · exact plain_of_isBlankText hs c hc
  · exact isPlain_of_isLabelChar (hl.isLabelChar c hc)

/-- The code begins with a blank exactly where the text does, unless it is empty. -/
theorem startsWithOrEnds_bare {t : Text} (h : startsWithOrEnds isBlank t = true) :
    startsWithOrEnds isBlank (bare t) = true := by
  cases t with
  | nil => rw [bare_nil]; rfl
  | cons c t =>
    rw [bare_plain (isPlain_of_isBlank h)]
    exact h

theorem classify_eq (d : Dialect) {t : Text} (hfeed : '\n' ∉ t) (hdirective : isDirective t = false) :
    classify d t = .ok (classifyCode d (trim (bare (dropLabel t)))) := by
  rw [classify, hdirective, codeOf, codeText_eq fun hmem => hfeed (mem_of_mem_dropLabel hmem)]
  rfl

/-- **The bare text of a line decides what it does to the nesting.** -/
theorem classify_bare (d : Dialect) {t : Text} (hfeed : '\n' ∉ t) (hdirective : isDirective t = false) :
    ∃ c, classify d t = .ok c ∧ c.SameEffect (classifyCode d (dropLabel (bare t))) := by
  refine ⟨_, classify_eq d hfeed hdirective, ?_⟩
  cases hlabel : label? t with
  | some l =>
    obtain ⟨s, v, hs, hl, hv, rfl⟩ := exists_label_append hlabel
    have hbare : bare (s ++ (l ++ v)) = s ++ (l ++ bare v) := by
      rw [← List.append_assoc, bare_plain_append (hl.plain hs), List.append_assoc]
    rw [(label?_append hs hl hv).2, trim_bare_trim, hbare,
      (label?_append hs hl (startsWithOrEnds_bare hv)).2]
    exact .refl _
  | none =>
    rw [dropLabel_of_label?_eq_none hlabel, trim_bare_trim]
    cases hbare : label? (bare t) with
    | none =>
      rw [dropLabel_of_label?_eq_none hbare]
      exact .refl _
    | some l =>
      obtain ⟨s, v, hs, hl, hv, hlv⟩ := exists_label_append hbare
      -- a blank behind the label would make it the label of the line
      have hempty : v = [] := by
        rw [← List.append_assoc] at hlv
        obtain ⟨u, rfl, hu⟩ := exists_of_bare_eq_append (hl.plain hs) hlv
        cases v with
        | nil => rfl
        | cons b v =>
          have hplain : ∀ c ∈ [b], isPlain c = true := by simpa using isPlain_of_isBlank hv
          obtain ⟨u, rfl, -⟩ := exists_of_bare_eq_append hplain hu
          have hrest : startsWithOrEnds isBlank ([b] ++ u) = true := hv
          rw [List.append_assoc, (label?_append hs hl hrest).1] at hlabel
          simp at hlabel
      subst hempty
      have hnone : Keyword.find? d (trim (bare t)) = none := by
        rw [hlv, List.append_nil, trim_append_of_blank_left hs, hl.trimmed.trim_eq]
        exact Keyword.find?_of_isLabel hl d
      have hnil : dropLabel (bare t) = [] := by rw [hlv, (label?_append hs hl hv).2]; rfl
      rw [hnil, classifyCode_of_none hnone, classifyCode_of_none (Keyword.find?_nil d)]
      exact ⟨rfl, rfl, rfl, rfl⟩

end PickIndent
