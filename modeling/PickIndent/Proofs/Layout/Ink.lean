import PickIndent.Proofs.Layout.Content

/-!
# Ink — what a rendered line shows

The ink of a text are its characters without the blanks.  Rendering sets blanks and nothing else, so a rendered
line has the ink of the line (`ink_renderLine`).  Together with its content this is all that rendering keeps: the
label and everything behind it, to the letter, and with them the classification of the line
(`renderLine_keeps`).
-/

namespace PickIndent

/-- The characters of a text that are not blank, in order. -/
def ink (t : Text) : Text := t.filter (!isBlank ·)

/-! ### Ink and blanks -/

@[simp] theorem ink_append (t u : Text) : ink (t ++ u) = ink t ++ ink u := List.filter_append ..

theorem ink_eq_nil_iff {t : Text} : ink t = [] ↔ isBlankText t = true := by
  rw [ink, List.filter_eq_nil_iff, isBlankText_iff]
  simp

@[simp] theorem ink_spaces (n : Int) : ink (spaces n) = [] := ink_eq_nil_iff.mpr (isBlankText_spaces n)

@[simp] theorem ink_trim (t : Text) : ink (trim t) = ink t := by
  obtain ⟨s, u, hs, hu, ht⟩ := exists_append_trim_append t
  conv_rhs => rw [ht]
  rw [ink_append, ink_append, ink_eq_nil_iff.mpr hs, ink_eq_nil_iff.mpr hu, List.nil_append, List.append_nil]

/-! ### Rendering -/

/-- **A rendered line has the ink of the line.** -/
theorem ink_renderLine (s : Style) (level : Int) (line : Text) : ink (renderLine s level line) = ink line := by
  obtain ⟨lead, core, hlead, hline, hcore⟩ := exists_renderLine s level line
  rw [hline, ink_append, ink_eq_nil_iff.mpr hlead, List.nil_append]
  rcases hcore with rfl | ⟨-, label, rest, n, hsplit, -, -, rfl⟩
  · exact ink_trim line
  · obtain ⟨-, htrim, -⟩ := splitLabel?_trim_eq_some hsplit
    calc ink (label ++ spaces n ++ trim rest) = ink (label ++ rest) := by simp
      _ = ink line := by rw [← htrim, ink_trim]

/-- **Rendering keeps everything but blanks.**  A rendered line does not end in a blank, and it has the ink of the
line; it is a directive if the line is one; it has the label of the line and, behind it, the same code to the
letter; and in every dialect it is classified as the line is, or fails to be in the same way. -/
theorem renderLine_keeps (s : Style) (level : Int) {line : Text} (hline : isBlankText line = false) :
    let out := renderLine s level line
    (∀ c ∈ out.getLast?, isBlank c = false) ∧ ink out = ink line ∧
    isDirective out = isDirective line ∧ label? out = label? line ∧ dropLabel out = dropLabel line ∧
    ∀ d : Dialect, classify d out = classify d line := by
  intro out
  have hcontent : SameContent out line := sameContent_renderLine s level line
  exact ⟨fun _ hc => renderLine_last hline hc, ink_renderLine s level line, hcontent.directive, hcontent.label,
    hcontent.code, fun d => hcontent.classify d⟩

theorem renderLine_keeps_remark :
    let s : Style := { margin := 3, indent := -2 }
    let line := " X1:\u3000IF A = \" ;* \"  THEN ;* \n ".toList
    let out := "X1: IF A = \" ;* \"  THEN ;*".toList
    isBlankText line = false ∧ renderLine s 4 line = out ∧ (∀ c ∈ out.getLast?, isBlank c = false) ∧
      ink out = ink line ∧ label? out = label? line ∧ dropLabel out = dropLabel line ∧
      classify { ignoreCase := true } out = classify { ignoreCase := true } line := by
  intro s line out
  have hline : isBlankText line = false := by decide
  have hout : renderLine s 4 line = out := by decide +kernel
  obtain ⟨hlast, hink, -, hlabel, hcode, hclassify⟩ := renderLine_keeps s 4 hline
  rw [hout] at hlast hink hlabel hcode hclassify
  exact ⟨hline, hout, hlast, hink, hlabel, hcode, hclassify _⟩

end PickIndent
