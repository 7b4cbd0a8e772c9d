import PickIndent.Proofs.Text.Beginning
import PickIndent.Proofs.Unicode.Apart

/-!
# The grammar of labels — which texts are labels and where a label ends

`IsLabel` says what a label is: a name and a colon, or a statement number with an optional fraction and
an optional colon.  `splitLabel?_eq_some_iff`: a text is split into `l` and `r` exactly if `l` is a
label, the text is `l` followed by `r`, and `r` is empty or begins with a blank.  So what stands behind
the blank has no say in what the label is.
-/

namespace PickIndent

/-! ### Names -/

/-- A name and its colon. -/
def IsNameLabel (l : Text) : Prop :=
  ∃ c u, isWordStart c = true ∧ (∀ x ∈ u, isLabelPart x = true) ∧ l = c :: u ++ [':']

theorem isLabelPart_colon : isLabelPart ':' = false := by decide +kernel

theorem splitNameLabel?_append {l : Text} (h : IsNameLabel l) (r : Text) :
    splitNameLabel? (l ++ r) = some (l, r) := by
  obtain ⟨c, u, hc, hu, rfl⟩ := h
  have hstop : startsWithOrEnds (!isLabelPart ·) (':' :: r) = true := by
    simp [startsWithOrEnds, isLabelPart_colon]
  obtain ⟨htake, hdrop⟩ := takeWhile_append_of_stop hu hstop
  have htext : c :: u ++ [':'] ++ r = c :: (u ++ ':' :: r) := by simp
  simp only [htext, splitNameLabel?, hc, if_true, hdrop, htake]

theorem isNameLabel_of_splitNameLabel? {t l r : Text} (h : splitNameLabel? t = some (l, r)) :
    IsNameLabel l ∧ t = l ++ r := by
  cases t with
  | nil => simp [splitNameLabel?] at h
  | cons c t =>
    rw [splitNameLabel?] at h
    split at h
    · rename_i hc
      split at h
      · rename_i rest hrest
        simp only [Option.some.injEq, Prod.mk.injEq] at h
        obtain ⟨rfl, rfl⟩ := h
        refine ⟨⟨c, _, hc, fun x hx => List.mem_takeWhile_imp hx, rfl⟩, ?_⟩
        have hsplit := List.takeWhile_append_dropWhile (p := isLabelPart) (l := t)
        rw [hrest] at hsplit
        simp [hsplit]
      · simp at h
    · simp at h

/-! ### Statement numbers -/

section Numbers

variable {isDigit : Char → Bool}

/-- A point with digits behind it, or nothing. -/
def IsFraction (isDigit : Char → Bool) (f : Text) : Prop :=
  f = [] ∨ ∃ d ds, (∀ x ∈ d :: ds, isDigit x = true) ∧ f = '.' :: d :: ds

/-- What may follow a number: neither a digit nor a point. -/
def endsNumber (isDigit : Char → Bool) (c : Char) : Bool := !isDigit c && c != '.'

theorem isFraction_splitFraction (t : Text) : IsFraction isDigit (splitFraction isDigit t).1 := by
  unfold splitFraction
  split
  · rename_i u
    split
    · exact Or.inl rfl
    · rename_i hstop
      cases u with
      | nil => simp [startsWithOrEnds] at hstop
      | cons d u =>
        have hd : isDigit d = true := by simpa [startsWithOrEnds] using hstop
        refine Or.inr ⟨d, u.takeWhile isDigit, ?_, ?_⟩
        · intro x hx
          rcases List.mem_cons.mp hx with rfl | hx
          · exact hd
          · exact List.mem_takeWhile_imp hx
        · simp [List.takeWhile_cons_of_pos hd]
  · exact Or.inl rfl

theorem splitFraction_isFraction_append {f r : Text} (hf : IsFraction isDigit f)
    (hr : startsWithOrEnds (endsNumber isDigit) r = true) : splitFraction isDigit (f ++ r) = (f, r) := by
  obtain rfl | ⟨d, ds, hds, rfl⟩ := hf
  · cases r with
    | nil => rfl
    | cons c r =>
      have hc : c ≠ '.' := by
        rintro rfl
        simp [startsWithOrEnds, endsNumber] at hr
      unfold splitFraction
      split
      · rename_i heq
        exact absurd (List.cons.inj heq).1 hc
      · rfl
  · have hstop : startsWithOrEnds (!isDigit ·) r = true :=
      startsWithOrEnds_mono (fun c hc => (Bool.and_eq_true_iff.mp hc).1) hr
    obtain ⟨htake, hdrop⟩ := takeWhile_append_of_stop hds hstop
    have hd : isDigit d = true := hds d (by simp)
    rw [List.cons_append, splitFraction, htake, hdrop]
    simp [startsWithOrEnds, hd]

theorem splitNumber_digits_append {ds f r : Text} (hdot : isDigit '.' = false)
    (hds : ∀ x ∈ ds, isDigit x = true)
    (hf : IsFraction isDigit f) (hr : startsWithOrEnds (endsNumber isDigit) r = true) :
    splitNumber isDigit (ds ++ (f ++ r)) = (ds ++ f, r) := by
  have hstop : startsWithOrEnds (!isDigit ·) (f ++ r) = true := by
    obtain rfl | ⟨d, es, -, rfl⟩ := hf
    · exact startsWithOrEnds_mono (fun c hc => (Bool.and_eq_true_iff.mp hc).1) hr
    · simp [startsWithOrEnds, hdot]
  obtain ⟨htake, hdrop⟩ := takeWhile_append_of_stop hds hstop
  simp only [splitNumber, htake, hdrop, splitFraction_isFraction_append hf hr]

theorem exists_splitNumber (isDigit : Char → Bool) (t : Text) :
    ∃ ds f, (∀ x ∈ ds, isDigit x = true) ∧ IsFraction isDigit f ∧ (splitNumber isDigit t).1 = ds ++ f :=
  ⟨_, _, fun _ hx => List.mem_takeWhile_imp hx, isFraction_splitFraction _, rfl⟩

end Numbers

/-- A statement number of any script, with its fraction and its colon if it has them. -/
def IsNumberLabel (l : Text) : Prop :=
  ∃ d ds f colon, (∀ x ∈ d :: ds, isDecimalDigit x = true) ∧ IsFraction isDecimalDigit f ∧
    (colon = [] ∨ colon = [':']) ∧ l = d :: ds ++ f ++ colon

theorem isBlank_colon : isBlank ':' = false := by decide

theorem endsNumber_of_isBlank {c : Char} (hc : isBlank c = true) : endsNumber isDecimalDigit c = true := by
  have hdot : c ≠ '.' := ne_of_class hc (by decide)
  simp [endsNumber, isDecimalDigit_of_isBlank hc, hdot]

theorem endsNumber_colon : endsNumber isDecimalDigit ':' = true := by decide +kernel

theorem splitNumberLabel?_append {l r : Text} (h : IsNumberLabel l)
    (hr : startsWithOrEnds isBlank r = true) : splitNumberLabel? (l ++ r) = some (l, r) := by
  obtain ⟨d, ds, f, colon, hds, hf, hcolon, rfl⟩ := h
  have hd : isDecimalDigit d = true := hds d (by simp)
  have hdot : isDecimalDigit '.' = false := by decide +kernel
  have hds' : ∀ x ∈ ds, isDecimalDigit x = true := fun x hx => hds x (by simp [hx])
  obtain rfl | rfl := hcolon
  · have hend := startsWithOrEnds_mono (fun _ => endsNumber_of_isBlank) hr
    have hsplit := splitNumber_digits_append hdot hds' hf hend
    have htext : d :: ds ++ f ++ [] ++ r = d :: (ds ++ (f ++ r)) := by simp
    simp only [htext, splitNumberLabel?, hd, if_true, hsplit]
    split
    · exact absurd hr (by simp [startsWithOrEnds, isBlank_colon])
    · simp
  · have hcolon : startsWithOrEnds (endsNumber isDecimalDigit) (':' :: r) = true := endsNumber_colon
    have hsplit := splitNumber_digits_append hdot hds' hf hcolon
    simp [splitNumberLabel?, hd, hsplit]

theorem isNumberLabel_of_splitNumberLabel? {t l r : Text} (h : splitNumberLabel? t = some (l, r)) :
    IsNumberLabel l ∧ t = l ++ r := by
  cases t with
  | nil => simp [splitNumberLabel?] at h
  | cons d t =>
    rw [splitNumberLabel?] at h
    split at h
    · rename_i hd
      obtain ⟨ds, f, hds, hf, hnumber⟩ := exists_splitNumber isDecimalDigit t
      have hdigits : ∀ x ∈ d :: ds, isDecimalDigit x = true := by
        intro x hx
        rcases List.mem_cons.mp hx with rfl | hx
        · exact hd
        · exact hds x hx
      have hlost := splitNumber_append isDecimalDigit t
      rcases hsplit : splitNumber isDecimalDigit t with ⟨number, rest⟩
      rw [hsplit] at hnumber hlost h
      obtain rfl : number = ds ++ f := hnumber
      cases rest with
      | nil =>
        obtain ⟨rfl, rfl⟩ : d :: (ds ++ f) = l ∧ [] = r := by simpa using h
        exact ⟨⟨d, ds, f, [], hdigits, hf, Or.inl rfl, by simp⟩, by simp [← hlost]⟩
      | cons c rest =>
        by_cases hc : c = ':'
        · subst hc
          obtain ⟨rfl, rfl⟩ : d :: (ds ++ (f ++ [':'])) = l ∧ rest = r := by simpa using h
          exact ⟨⟨d, ds, f, [':'], hdigits, hf, Or.inr rfl, by simp⟩, by simp [← hlost]⟩
        · obtain ⟨rfl, rfl⟩ : d :: (ds ++ f) = l ∧ c :: rest = r := by simpa [hc] using h
          exact ⟨⟨d, ds, f, [], hdigits, hf, Or.inl rfl, by simp⟩, by simp [← hlost]⟩
    · simp at h

/-! ### Labels -/

/-- A name with its colon, or a statement number with or without one. -/
def IsLabel (l : Text) : Prop := IsNameLabel l ∨ IsNumberLabel l

theorem splitNameLabel?_of_isNumberLabel {l : Text} (h : IsNumberLabel l) (r : Text) :
    splitNameLabel? (l ++ r) = none := by
  obtain ⟨d, ds, f, colon, hds, -, -, rfl⟩ := h
  have hd : isWordStart d = false := isWordStart_of_isDecimalDigit (hds d (by simp))
  simp [splitNameLabel?, hd]

/-- **A label ends at the first blank or at the end of the text.** -/
theorem splitLabel?_eq_some_iff {t l r : Text} :
    splitLabel? t = some (l, r) ↔ IsLabel l ∧ t = l ++ r ∧ startsWithOrEnds isBlank r = true := by
  unfold splitLabel?
  rw [Option.filter_eq_some_iff, Option.or_eq_some_iff]
  constructor
  · rintro ⟨hname | ⟨-, hnumber⟩, hr⟩
    · obtain ⟨hl, ht⟩ := isNameLabel_of_splitNameLabel? hname
      exact ⟨Or.inl hl, ht, hr⟩
    · obtain ⟨hl, ht⟩ := isNumberLabel_of_splitNumberLabel? hnumber
      exact ⟨Or.inr hl, ht, hr⟩
  · rintro ⟨hname | hnumber, rfl, hr⟩
    · exact ⟨Or.inl (splitNameLabel?_append hname r), hr⟩
    · exact ⟨Or.inr ⟨splitNameLabel?_of_isNumberLabel hnumber r, splitNumberLabel?_append hnumber hr⟩, hr⟩

end PickIndent
