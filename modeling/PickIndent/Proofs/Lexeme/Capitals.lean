import PickIndent.Proofs.Classification.Lines
import PickIndent.Proofs.Lexeme.Bare
import PickIndent.Proofs.Text.Capitals

/-!
# Capitals of a line — its strings, comment and label

Quotes, backslashes, semicolons and asterisks are no letters, and a label is told by classes that hold a letter in
both cases or in neither.  So the capitals of a line have the capitals of its code (`codeOf_capitals`) and those of
its label (`splitLabel?_capitals`).
-/

namespace PickIndent

/-- Both parts of a cut text in capitals. -/
def capitalsPair (p : Text × Text) : Text × Text := (capitals p.1, capitals p.2)

/-! ### Code -/

theorem isAlpha_of_isQuote {c : Char} (h : isQuote c = true) : c.isAlpha = false := by
  rcases Bool.or_eq_true_iff.mp h with h | h <;> rw [beq_iff_eq.mp h] <;> decide

theorem caseless_isPlain : Caseless isPlain := caseless_of_letters (by decide)

theorem caseless_isWordStart : Caseless isWordStart := caseless_of_letters (by decide)

theorem closeString?_capitals {quote : Char} (hquote : quote.isAlpha = false) (t : Text) :
    closeString? quote (capitals t) = (closeString? quote t).map capitalsPair := by
  have hsame : quote.toUpper = quote := (toUpper_eq_iff hquote quote).mpr rfl
  have hslash : '\\'.toUpper = '\\' := rfl
  fun_induction closeString? quote t with
  | case1 => rfl
  | case2 t =>
    rw [capitals_cons, hsame, closeString?_quote]
    simp [capitalsPair, hsame]
  | case3 hne =>
    rw [capitals_cons, hslash, capitals_nil, closeString?.eq_def]
    simp [hne]
  | case4 u hne =>
    rw [capitals_cons, hslash, capitals_cons, closeString?.eq_def]
    simp [hne]
  | case5 c u hfeed hne ih =>
    have hfeed' : c.toUpper ≠ '\n' := (toUpper_eq_iff (by decide) c).not.mpr hfeed
    rw [capitals_cons, hslash, capitals_cons, closeString?_escape hne hfeed', ih]
    cases closeString? quote u <;> rfl
  | case6 c t hne hescape ih =>
    have hne' : c.toUpper ≠ quote := (toUpper_eq_iff hquote c).not.mpr hne
    have hescape' : c.toUpper ≠ '\\' := (toUpper_eq_iff (by decide) c).not.mpr hescape
    rw [capitals_cons, closeString?_cons hne' hescape', ih]
    cases closeString? quote t <;> rfl

theorem startsComment_capitals (t : Text) : startsComment (capitals t) = startsComment t := by
  have hgap : Caseless fun c => c == ' ' || c == '\t' := (caseless_beq (by decide)).or (caseless_beq (by decide))
  rw [startsComment, startsComment, dropWhile_capitals hgap, Bool.eq_iff_iff, beq_iff_eq, beq_iff_eq,
    head?_capitals (by decide)]

/-- **The code of the capitals is the code in capitals.** -/
theorem bare_capitals (t : Text) : bare (capitals t) = capitals (bare t) := by
  fun_induction bare t with
  | case1 => rw [capitals_nil, bare_nil]
  | case2 c t hquote body rest hclose ih =>
    have hc : c.toUpper = c := (toUpper_eq_iff (isAlpha_of_isQuote hquote) c).mpr rfl
    have hclosed := closeString?_capitals (isAlpha_of_isQuote hquote) t
    rw [hclose] at hclosed
    rw [capitals_cons, hc, bare_closed hquote hclosed, ih, capitals_cons, capitals_cons, hc]
  | case3 c t hquote hclose ih =>
    have hc : c.toUpper = c := (toUpper_eq_iff (isAlpha_of_isQuote hquote) c).mpr rfl
    have hopen := closeString?_capitals (isAlpha_of_isQuote hquote) t
    rw [hclose] at hopen
    rw [capitals_cons, hc, bare_loneQuote hquote hopen, ih, capitals_cons, hc]
  | case4 c t hquote hcomment =>
    obtain ⟨rfl, hstart⟩ := hcomment
    exact bare_comment ((startsComment_capitals t).trans hstart)
  | case5 c t hquote hcomment ih =>
    by_cases hsemicolon : c = ';'
    · subst hsemicolon
      have hstart : startsComment t = false := by simpa using hcomment
      rw [capitals_cons, show ';'.toUpper = ';' from rfl, bare_semicolon ((startsComment_capitals t).trans hstart), ih]
      rfl
    · have hplain : isPlain c.toUpper = true := by
        rw [caseless_isPlain c]
        simpa [isPlain, hsemicolon] using hquote
      rw [capitals_cons, bare_plain hplain, ih, capitals_cons]

/-! ### Labels -/

theorem caseless_isLabelPart : Caseless isLabelPart := caseless_of_letters (by decide +kernel)

theorem caseless_isDecimalDigit : Caseless isDecimalDigit := caseless_of_letters (by decide +kernel)

theorem splitNameLabel?_capitals (t : Text) : splitNameLabel? (capitals t) = (splitNameLabel? t).map capitalsPair := by
  cases t with
  | nil => rfl
  | cons c t =>
    rw [capitals_cons, splitNameLabel?, splitNameLabel?, caseless_isWordStart c, dropWhile_capitals caseless_isLabelPart,
      takeWhile_capitals caseless_isLabelPart]
    cases t.dropWhile isLabelPart with
    | nil => split <;> rfl
    | cons a u =>
      by_cases ha : a = ':'
      · subst ha
        split
        · simp [capitalsPair]
        · rfl
      · have ha' : a.toUpper ≠ ':' := (toUpper_eq_iff (by decide) a).not.mpr ha
        simp [ha, ha']

theorem splitFraction_capitals (t : Text) :
    splitFraction isDecimalDigit (capitals t) = capitalsPair (splitFraction isDecimalDigit t) := by
  cases t with
  | nil => rfl
  | cons a u =>
    by_cases ha : a = '.'
    · subst ha
      rw [capitals_cons, show '.'.toUpper = '.' from rfl, splitFraction, splitFraction,
        startsWithOrEnds_capitals caseless_isDecimalDigit.not, takeWhile_capitals caseless_isDecimalDigit,
        dropWhile_capitals caseless_isDecimalDigit]
      split <;> rfl
    · have ha' : a.toUpper ≠ '.' := (toUpper_eq_iff (by decide) a).not.mpr ha
      simp [splitFraction, ha, ha', capitalsPair]

theorem splitNumber_capitals (t : Text) :
    splitNumber isDecimalDigit (capitals t) = capitalsPair (splitNumber isDecimalDigit t) := by
  rw [splitNumber, splitNumber, dropWhile_capitals caseless_isDecimalDigit, takeWhile_capitals caseless_isDecimalDigit,
    splitFraction_capitals]
  simp [capitalsPair]

theorem splitNumberLabel?_capitals (t : Text) :
    splitNumberLabel? (capitals t) = (splitNumberLabel? t).map capitalsPair := by
  cases t with
  | nil => rfl
  | cons c t =>
    rw [capitals_cons, splitNumberLabel?, splitNumberLabel?, caseless_isDecimalDigit c, splitNumber_capitals]
    rcases splitNumber isDecimalDigit t with ⟨number, rest⟩
    cases rest with
    | nil => split <;> rfl
    | cons a u =>
      by_cases ha : a = ':'
      · subst ha
        split
        · simp [capitalsPair]
        · rfl
      · have ha' : a.toUpper ≠ ':' := (toUpper_eq_iff (by decide) a).not.mpr ha
        simp [ha, ha', capitalsPair]

/-- **The label of the capitals is the label in capitals.** -/
theorem splitLabel?_capitals (t : Text) : splitLabel? (capitals t) = (splitLabel? t).map capitalsPair := by
  rw [splitLabel?, splitLabel?, splitNameLabel?_capitals, splitNumberLabel?_capitals, ← Option.map_or,
    Option.filter_map]
  congr 2
  funext p
  exact startsWithOrEnds_capitals caseless_isBlank p.2

theorem dropLabel_capitals (line : Text) : dropLabel (capitals line) = capitals (dropLabel line) := by
  rw [dropLabel, dropLabel, trim_capitals, splitLabel?_capitals]
  cases splitLabel? (trim line) with
  | none => rfl
  | some p => exact trim_capitals p.2

/-! ### Lines -/

theorem isDirective_capitals (line : Text) : isDirective (capitals line) = isDirective line := by
  rw [isDirective, isDirective, trim_capitals, Bool.eq_iff_iff, beq_iff_eq, beq_iff_eq, head?_capitals (by decide)]

/-- **The code of a line in capitals is the code of the line in capitals.** -/
theorem codeOf_capitals {line : Text} (h : '\n' ∉ line) : codeOf (capitals line) = (codeOf line).map capitals := by
  have hcode : '\n' ∉ dropLabel line := fun hmem => h (mem_of_mem_dropLabel hmem)
  rw [codeOf, codeOf, dropLabel_capitals, codeText_eq hcode, codeText_eq ((mem_capitals (by decide)).not.mpr hcode),
    bare_capitals, trim_capitals]
  rfl

theorem mem_of_mem_bare {t : Text} {c : Char} (h : c ∈ bare t) : c ∈ t := by
  fun_induction bare t with
  | case1 => exact h
  | case2 a t hquote body rest hclose ih =>
    rw [← closeString?_append hclose]
    rcases List.mem_cons.mp h with rfl | h
    · simp
    rcases List.mem_cons.mp h with rfl | h
    · simp
    · simp [ih h]
  | case3 a t hquote hclose ih => exact List.mem_cons.mpr ((List.mem_cons.mp h).imp_right ih)
  | case4 a t hquote hcomment => simp at h
  | case5 a t hquote hcomment ih => exact List.mem_cons.mpr ((List.mem_cons.mp h).imp_right ih)

/-- The code of a line is made of its characters. -/
theorem mem_of_mem_codeOf {line code : Text} (h : '\n' ∉ line) (hcode : codeOf line = .ok code) {c : Char}
    (hc : c ∈ code) : c ∈ line := by
  rw [codeOf, codeText_eq fun hmem => h (mem_of_mem_dropLabel hmem)] at hcode
  obtain rfl := Except.ok.inj hcode
  exact mem_of_mem_dropLabel (mem_of_mem_bare (mem_of_mem_trim hc))

end PickIndent
