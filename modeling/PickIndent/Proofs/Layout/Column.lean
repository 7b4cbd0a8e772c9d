import PickIndent.Proofs.Layout.Content

/-!
# Columns — where the rest of a labelled line begins

A line without a label begins at the column of its level.  Behind a label the rest of the line is kept at that column
as far as the label reaches into the margin only: the label is padded to the margin, and the indentation follows
whatever its width (`renderLine_column_iff`).
-/

namespace PickIndent

/-- The column at which a line without a label begins. -/
def Style.column (s : Style) (level : Int) : Int := s.margin + s.indent * level

variable {s : Style} {level : Int}

theorem length_spaces {n : Int} (hn : 0 ≤ n) : ((spaces n).length : Int) = n := by
  rw [spaces, List.length_replicate, Int.toNat_of_nonneg hn]

theorem renderLine_unlabelled (hmargin : 0 ≤ s.margin) (hindentation : 0 ≤ s.indent * level) {line : Text}
    (hdirective : isDirective line = false) (hlabel : label? line = none) :
    renderLine s level line = spaces (s.column level) ++ dropLabel line := by
  have hfront : spaces s.margin ++ spaces (s.indent * level) = spaces (s.column level) := by
    rw [spaces_append_spaces, Int.max_eq_left hmargin, Int.max_eq_left hindentation]
    rfl
  rw [renderLine_eq, hdirective, if_neg Bool.false_ne_true, hlabel, hfront]

theorem renderLine_labelled (hs : s.labelsInMargin = true) {line label : Text} (hlabel : label? line = some label)
    (hrest : dropLabel line ≠ []) :
    renderLine s level line = label ++ spaces (gapWidth s level label) ++ dropLabel line := by
  have hdirective : isDirective line = false := by
    rw [← Bool.not_eq_true]
    intro h
    simp [label?_of_isDirective h] at hlabel
  rw [renderLine_eq, hdirective, if_neg Bool.false_ne_true, hlabel]
  simp only [hs, if_true, renderLabelled_eq s level label hrest]

/-- The rest of a labelled line stands behind the wider of label and margin, and one space off the label at least. -/
theorem length_add_gapWidth (s : Style) (hindentation : 0 ≤ s.indent * level) (label : Text) :
    label.length + gapWidth s level label =
      max (max (label.length : Int) s.margin + s.indent * level) (label.length + 1) := by
  unfold gapWidth
  split <;> omega

/-- **The rest of a labelled line keeps the column of its level exactly if the label does not reach beyond the
margin.**  A gap always separates the two.  A label that leaves room for the column but is wider than the margin
pushes the rest to the right by as much as it is wider. -/
theorem renderLine_column_iff (hs : s.labelsInMargin = true) (hmargin : 0 ≤ s.margin) (hindent : 0 ≤ s.indent)
    (hlevel : 0 ≤ level) {line label : Text} (hlabel : label? line = some label) (hrest : dropLabel line ≠ []) :
    ∃ gap, 0 < gap ∧ renderLine s level line = label ++ spaces gap ++ dropLabel line ∧
      (label.length < s.column level →
        (((label ++ spaces gap).length : Int) = s.column level ↔ label.length ≤ s.margin) ∧
        ((label ++ spaces gap).length : Int) = s.column level + max 0 (label.length - s.margin)) ∧
      ∀ other, isDirective other = false → label? other = none →
        renderLine s level other = spaces (s.column level) ++ dropLabel other := by
  have hindentation : 0 ≤ s.indent * level := Int.mul_nonneg hindent hlevel
  have hpos := gapWidth_pos s level label
  refine ⟨gapWidth s level label, hpos, renderLine_labelled hs hlabel hrest, fun hroom => ?_, fun other hdirective hnone =>
    renderLine_unlabelled hmargin hindentation hdirective hnone⟩
  have hwidth := length_add_gapWidth s hindentation label
  have hlength : ((label ++ spaces (gapWidth s level label)).length : Int) = label.length + gapWidth s level label := by
    rw [List.length_append, Int.natCast_add, length_spaces (Int.le_of_lt hpos)]
  unfold Style.column at hroom ⊢
  omega

theorem renderLine_column_iff_margin :
    let s : Style := {}
    let line := "10000 PRINT I".toList
    let other := "PRINT I".toList
    label? line = some "10000".toList ∧ dropLabel line ≠ [] ∧ isDirective other = false ∧ label? other = none ∧
      ∃ gap, 0 < gap ∧ renderLine s 1 line = "10000".toList ++ spaces gap ++ dropLabel line ∧
        (("10000".toList ++ spaces gap).length : Int) = s.column 1 ∧
        renderLine s 1 other = spaces (s.column 1) ++ dropLabel other := by
  intro s line other
  have hlabel : label? line = some "10000".toList := by decide +kernel
  have hrest : dropLabel line ≠ [] := by decide +kernel
  have hdirective : isDirective other = false := by decide +kernel
  have hnone : label? other = none := by decide +kernel
  have hs : s.labelsInMargin = true := rfl
  have hlevel : (0 : Int) ≤ 1 := by decide
  obtain ⟨gap, hgap, hrender, hcolumn, hother⟩ :=
    renderLine_column_iff hs (by decide) (by decide) hlevel hlabel hrest
  exact ⟨hlabel, hrest, hdirective, hnone, gap, hgap, hrender, (hcolumn (by decide)).1.mpr (by decide),
    hother other hdirective hnone⟩

/-- A label wider than the margin moves the rest of its line off the column for which it leaves room. -/
theorem wide_label_moves_rest :
    let s : Style := {}
    let line := "SUBR10: PRINT X".toList
    let front := "SUBR10:   ".toList
    label? line = some "SUBR10:".toList ∧ ("SUBR10:".toList.length : Int) < s.column 1 ∧
      renderLine s 1 line = front ++ dropLabel line ∧ (front.length : Int) ≠ s.column 1 := by
  decide +kernel

end PickIndent
