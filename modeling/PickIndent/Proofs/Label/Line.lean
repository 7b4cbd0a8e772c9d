import PickIndent.Proofs.Layout.Content

/-!
# The label of a line — where it stands and what it is made of

A line has a label exactly if it is blanks, the label, and a rest that is empty or begins with a blank
(`exists_label_append`, `label?_append`).  No character of a label is a blank (`isBlank_of_isLabelChar`).
-/

namespace PickIndent

/-! ### The characters of a label -/

/-- What labels are made of. -/
def isLabelChar (c : Char) : Bool := isLabelPart c || isWordStart c || isDecimalDigit c || c == ':'

theorem isLabelChar_of_isLabelPart {c : Char} (h : isLabelPart c = true) : isLabelChar c = true := by
  simp [isLabelChar, h]

theorem isLabelChar_of_isDecimalDigit {c : Char} (h : isDecimalDigit c = true) : isLabelChar c = true := by
  simp [isLabelChar, h]

theorem isLabelChar_colon : isLabelChar ':' = true := by simp [isLabelChar]

theorem IsFraction.isLabelChar {f : Text} (h : IsFraction isDecimalDigit f) : ∀ c ∈ f, isLabelChar c = true := by
  rcases h with rfl | ⟨d, ds, hds, rfl⟩
  · simp
  · intro c hc
    rcases List.mem_cons.mp hc with rfl | hc
    · exact isLabelChar_of_isLabelPart (by decide +kernel)
    · exact isLabelChar_of_isDecimalDigit (hds c hc)

theorem IsLabel.isLabelChar {l : Text} (h : IsLabel l) : ∀ c ∈ l, isLabelChar c = true := by
  intro x hx
  rcases h with ⟨c, u, hc, hu, rfl⟩ | ⟨d, ds, f, colon, hds, hf, hcolon, rfl⟩
  · rcases List.mem_append.mp hx with hx | hx
    · rcases List.mem_cons.mp hx with rfl | hx
      · simp [PickIndent.isLabelChar, hc]
      · exact isLabelChar_of_isLabelPart (hu x hx)
    · rw [List.mem_singleton.mp hx]
      exact isLabelChar_colon
  · rcases List.mem_append.mp hx with hx | hx
    · rcases List.mem_append.mp hx with hx | hx
      · exact isLabelChar_of_isDecimalDigit (hds x hx)
      · exact hf.isLabelChar x hx
    · rcases hcolon with rfl | rfl
      · simp at hx
      · rw [List.mem_singleton.mp hx]
        exact isLabelChar_colon

/-- A label has a colon or a digit in it. -/
theorem IsLabel.exists_mark {l : Text} (h : IsLabel l) : ∃ c ∈ l, c = ':' ∨ isDecimalDigit c = true := by
  rcases h with ⟨c, u, -, -, rfl⟩ | ⟨d, ds, f, colon, hds, -, -, rfl⟩
  · exact ⟨':', by simp, Or.inl rfl⟩
  · exact ⟨d, by simp, Or.inr (hds d (by simp))⟩

theorem isBlank_of_isLabelChar {c : Char} (h : isLabelChar c = true) : isBlank c = false :=
  isBlank_of_class (by decide +kernel) h

/-! ### The place of a label -/

theorem trimmed_of_isBlank {t : Text} (h : ∀ c ∈ t, isBlank c = false) : Trimmed t where
  head c hc := h c (List.mem_of_mem_head? hc)
  last c hc := h c (List.mem_of_getLast? hc)

theorem IsLabel.trimmed {l : Text} (h : IsLabel l) : Trimmed l :=
  trimmed_of_isBlank fun c hc => isBlank_of_isLabelChar (h.isLabelChar c hc)

theorem startsWithOrEnds_of_isBlankText {s : Text} (hs : isBlankText s = true) :
    startsWithOrEnds isBlank s = true :=
  startsWithOrEnds_iff.mpr fun c hc => isBlankText_iff.mp hs c (List.mem_of_mem_head? hc)

/-- **A label at the beginning of a line is the label of the line.** -/
theorem splitLabel?_append {s l v : Text} (hs : isBlankText s = true) (hl : IsLabel l)
    (hv : startsWithOrEnds isBlank v = true) :
    ∃ r, splitLabel? (trim (s ++ (l ++ v))) = some (l, r) ∧ trim r = trim v := by
  have hstart : trimStart (l ++ v) = l ++ v := by
    obtain ⟨c, u, hcu⟩ := List.exists_cons_of_ne_nil hl.ne_nil
    rw [hcu]
    exact List.dropWhile_cons_of_neg (by simp [hl.trimmed.head c (by rw [hcu]; rfl)])
  rw [trim_append_of_blank_left hs, trim, hstart]
  cases hblank : isBlankText v with
  | true =>
    rw [trimEnd_append_of_blank hblank, hl.trimmed.trimEnd_eq]
    refine ⟨[], splitLabel?_eq_some_iff.mpr ⟨hl, (List.append_nil l).symm, rfl⟩, ?_⟩
    rw [trim_eq_nil_iff.mpr hblank]
    rfl
  | false =>
    rw [trimEnd_append hblank]
    exact ⟨trimEnd v, splitLabel?_eq_some_iff.mpr ⟨hl, rfl,
      startsWithOrEnds_of_isPrefix (trimEnd_isPrefix v) hv⟩, trim_trimEnd v⟩

theorem label?_append {s l v : Text} (hs : isBlankText s = true) (hl : IsLabel l)
    (hv : startsWithOrEnds isBlank v = true) :
    label? (s ++ (l ++ v)) = some l ∧ dropLabel (s ++ (l ++ v)) = trim v := by
  obtain ⟨r, hsplit, hr⟩ := splitLabel?_append hs hl hv
  exact ⟨by rw [label?, hsplit]; rfl, by simp only [dropLabel, hsplit, hr]⟩

/-- **The label of a line stands at its beginning**, up to a blank or the end. -/
theorem exists_label_append {t l : Text} (h : label? t = some l) :
    ∃ s v, isBlankText s = true ∧ IsLabel l ∧ startsWithOrEnds isBlank v = true ∧ t = s ++ (l ++ v) := by
  obtain ⟨⟨_, r⟩, hsplit, rfl⟩ := Option.map_eq_some_iff.mp h
  obtain ⟨hl, htrim, hr⟩ := splitLabel?_trim_eq_some hsplit
  obtain ⟨s, u, hs, hu, ht⟩ := exists_append_trim_append t
  refine ⟨s, r ++ u, hs, hl, ?_, ?_⟩
  · cases r with
    | nil => exact startsWithOrEnds_of_isBlankText hu
    | cons c r => exact hr
  · rw [ht, htrim]
    simp

/-! ### What stands before the code -/

theorem trimmed_dropLabel (t : Text) : Trimmed (dropLabel t) := by
  unfold dropLabel
  split <;> exact trimmed_trim _

/-- Before the code there are blanks and the label. -/
theorem exists_front (t : Text) : ∃ s u, (∀ c ∈ s, isBlank c = true ∨ isLabelChar c = true) ∧
    isBlankText u = true ∧ t = s ++ dropLabel t ++ u := by
  cases hlabel : label? t with
  | none =>
    obtain ⟨s, u, hs, hu, ht⟩ := exists_append_trim_append t
    rw [← dropLabel_of_label?_eq_none hlabel] at ht
    exact ⟨s, u, fun c hc => Or.inl (isBlankText_iff.mp hs c hc), hu, ht⟩
  | some l =>
    obtain ⟨s, v, hs, hl, hv, rfl⟩ := exists_label_append hlabel
    obtain ⟨w, u, hw, hu, hsplit⟩ := exists_append_trim_append v
    rw [(label?_append hs hl hv).2]
    refine ⟨s ++ l ++ w, u, fun c hc => ?_, hu, ?_⟩
    · rcases List.mem_append.mp hc with hc | hc
      · rcases List.mem_append.mp hc with hc | hc
        · exact Or.inl (isBlankText_iff.mp hs c hc)
        · exact Or.inr (hl.isLabelChar c hc)
      · exact Or.inl (isBlankText_iff.mp hw c hc)
    · conv_lhs => rw [hsplit]
      simp

/-- So there are before the code wherever the blanks behind it are seen to begin. -/
theorem front_of_eq_append {t s u : Text} (hu : isBlankText u = true) (ht : t = s ++ dropLabel t ++ u) :
    ∀ c ∈ s, isBlank c = true ∨ isLabelChar c = true := by
  obtain ⟨s', u', hs', hu', ht'⟩ := exists_front t
  by_cases hnil : dropLabel t = []
  · intro c hc
    have hmem : c ∈ s' ++ dropLabel t ++ u' := by
      rw [← ht', ht]
      simp [hc]
    rw [hnil, List.append_nil, List.mem_append] at hmem
    exact hmem.elim (hs' c) fun hc => Or.inl (isBlankText_iff.mp hu' c hc)
  · have hblank : isBlankText (dropLabel t) = false := by
      rw [← Bool.not_eq_true, ← trim_eq_nil_iff, (trimmed_dropLabel t).trim_eq]
      exact hnil
    have trimEnd_eq : ∀ {s u : Text}, isBlankText u = true → t = s ++ dropLabel t ++ u →
        trimEnd t = s ++ dropLabel t := by
      intro s u hu ht
      conv_lhs => rw [ht]
      rw [trimEnd_append_of_blank hu, trimEnd_append hblank, (trimmed_dropLabel t).trimEnd_eq]
    have hsame : s' ++ dropLabel t = s ++ dropLabel t := (trimEnd_eq hu' ht').symm.trans (trimEnd_eq hu ht)
    rw [← List.append_cancel_right hsame]
    exact hs'

end PickIndent
