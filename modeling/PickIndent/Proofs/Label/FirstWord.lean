import PickIndent.Proofs.Label.Line

/-!
# The first word of a line — its label or none

No blank stands in a label, and a blank or the end of the line follows it.  So a line has its first word for a label
if that is one, and otherwise it has none: no other beginning of the line will do.  A line can be cut in only one way
into a label, a gap and the rest (`label_is_first_word`).
-/

namespace PickIndent

/-- What stands before the first blank of a trimmed line. -/
def firstWord (t : Text) : Text := (trim t).takeWhile (!isBlank ·)

/-- A trimmed line cut into a label, the blanks behind it and the rest.  There is no rest without a blank in front. -/
structure LabelCut (t l gap rest : Text) : Prop where
  label : IsLabel l
  blank : isBlankText gap = true
  trimmed : Trimmed rest
  apart : gap = [] → rest = []
  text : trim t = l ++ gap ++ rest

section Line

variable {t l rest : Text}

/-! ### The label is the first word -/

theorem firstWord_eq (hl : IsLabel l) (ht : trim t = l ++ rest) (hrest : startsWithOrEnds isBlank rest = true) :
    firstWord t = l := by
  have hink : ∀ c ∈ l, (!isBlank c) = true := fun c hc => by
    rw [isBlank_of_isLabelChar (hl.isLabelChar c hc)]
    rfl
  have hstop : startsWithOrEnds (fun c => !!isBlank c) rest = true := by simpa only [Bool.not_not] using hrest
  rw [firstWord, ht, (takeWhile_append_of_stop hink hstop).1]

theorem exists_firstWord_append (t : Text) :
    ∃ rest, trim t = firstWord t ++ rest ∧ startsWithOrEnds isBlank rest = true := by
  have hstop := startsWithOrEnds_dropWhile (!isBlank ·) (trim t)
  simp only [Bool.not_not] at hstop
  exact ⟨(trim t).dropWhile (!isBlank ·), List.takeWhile_append_dropWhile.symm, hstop⟩

theorem label?_eq_some_iff : label? t = some l ↔ IsLabel l ∧ firstWord t = l := by
  constructor
  · intro h
    obtain ⟨⟨_, rest⟩, hsplit, rfl⟩ := Option.map_eq_some_iff.mp h
    obtain ⟨hl, ht, hrest⟩ := splitLabel?_trim_eq_some hsplit
    exact ⟨hl, firstWord_eq hl ht hrest⟩
  · rintro ⟨hl, rfl⟩
    obtain ⟨rest, ht, hrest⟩ := exists_firstWord_append t
    exact Option.map_eq_some_iff.mpr ⟨_, splitLabel?_eq_some_iff.mpr ⟨hl, ht, hrest⟩, rfl⟩

theorem label?_eq_none_iff : label? t = none ↔ ¬IsLabel (firstWord t) := by
  rw [Option.eq_none_iff_forall_ne_some]
  simp only [ne_eq, label?_eq_some_iff]
  exact ⟨fun h hl => h _ ⟨hl, rfl⟩, fun h _ hl => h (hl.2 ▸ hl.1)⟩

/-! ### The cut behind the label -/

theorem LabelCut.label_and_rest {gap : Text} (h : LabelCut t l gap rest) : label? t = some l ∧ dropLabel t = rest := by
  have hstart : startsWithOrEnds isBlank (gap ++ rest) = true := by
    by_cases hgap : gap = []
    · rw [hgap, h.apart hgap]
      rfl
    · rw [startsWithOrEnds_iff, List.head?_append_of_ne_nil _ hgap]
      exact fun c hc => isBlankText_iff.mp h.blank c (List.mem_of_mem_head? hc)
  have hsplit : splitLabel? (trim t) = some (l, gap ++ rest) :=
    splitLabel?_eq_some_iff.mpr ⟨h.label, by rw [h.text, List.append_assoc], hstart⟩
  refine ⟨by rw [label?, hsplit]; rfl, ?_⟩
  simp only [dropLabel, hsplit, trim_append_of_blank_left h.blank, h.trimmed.trim_eq]

theorem exists_labelCut (h : label? t = some l) : ∃ gap, LabelCut t l gap (dropLabel t) := by
  obtain ⟨⟨l, after⟩, hsplit, rfl⟩ := Option.map_eq_some_iff.mp h
  obtain ⟨hl, ht, hafter⟩ := splitLabel?_trim_eq_some hsplit
  obtain ⟨gap, u, hgap, hu, hcut⟩ := exists_append_trim_append after
  have hcode : dropLabel t = trim after := by simp only [dropLabel, hsplit]
  -- the trimmed line ends where the trimmed rest does
  have htext : trim t = l ++ gap ++ trim after ++ u := by
    rw [ht, List.append_assoc, List.append_assoc, ← List.append_assoc gap, ← hcut]
  obtain rfl : u = [] := (htext ▸ trimmed_trim t).eq_nil_of_append_blank hu
  rw [List.append_nil] at htext hcut
  refine ⟨gap, hl, hgap, trimmed_dropLabel t, fun hnil => ?_, hcode ▸ htext⟩
  rw [hcut, hnil] at hafter
  rw [hcode, (trimmed_trim after).eq_nil_of_startsWithOrEnds hafter]

end Line

/-- **The label of a line is its first word, if that is a name with a colon or a statement number**, and otherwise the
line has none.  A label and the rest of its line, with blanks between them, make up the trimmed line, and no other
label and rest do. -/
theorem label_is_first_word (t : Text) :
    (label? t = some (firstWord t) ↔ IsLabel (firstWord t)) ∧
    (label? t = none ↔ ¬IsLabel (firstWord t)) ∧
    ∀ l rest, (label? t = some l ∧ dropLabel t = rest) ↔ ∃ gap, LabelCut t l gap rest := by
  refine ⟨label?_eq_some_iff.trans (and_iff_left rfl), label?_eq_none_iff, fun l rest => ⟨?_, ?_⟩⟩
  · rintro ⟨hlabel, rfl⟩
    exact exists_labelCut hlabel
  · rintro ⟨gap, hcut⟩
    exact hcut.label_and_rest

/-- A number with a fraction and a colon is a label, and with two fractions it is none. -/
theorem label_is_first_word_number :
    let t := " ٣.5:\u00a0\tGOSUB 10 ".toList
    let u := "1.5.2: GOSUB 10".toList
    label? t = some "٣.5:".toList ∧ (∃ gap, LabelCut t "٣.5:".toList gap "GOSUB 10".toList) ∧
      label? u = none ∧ ¬IsLabel (firstWord u) := by
  intro t u
  have hlabel : label? t = some "٣.5:".toList ∧ dropLabel t = "GOSUB 10".toList := by decide +kernel
  have hnone : label? u = none := by decide +kernel
  obtain ⟨-, -, hcut⟩ := label_is_first_word t
  obtain ⟨-, hnot, -⟩ := label_is_first_word u
  exact ⟨hlabel.1, (hcut _ _).mp hlabel, hnone, hnot.mp hnone⟩

end PickIndent
