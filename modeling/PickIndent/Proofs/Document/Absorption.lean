import PickIndent.Proofs.Document.Endings
import PickIndent.Proofs.Layout.Content
import PickIndent.Proofs.Pass.Levels

/-!
# Absorption — formatting what has been formatted

Formatting reads a line only through its content, and its result has lines of the same content.  So a
second pass, with whatever options, sees the program it would have seen without the first
(`formatText_of_formatted`), and the same options once more change nothing.
-/

namespace PickIndent

/-! ### Lines of the same content -/

/-- Two lines of the same content that are also rendered alike. -/
structure RenderedAlike (s : Style) (a b : Text) : Prop where
  content : SameContent a b
  render : ∀ level, renderLine s level a = renderLine s level b

theorem RenderedAlike.of_blank (s : Style) {line : Text} (h : isBlankText line = true) :
    RenderedAlike s [] line := by
  have hcontent : SameContent [] line := .of_trim (by rw [trim_eq_nil_iff.mpr h]; rfl)
  have hlabel : label? line = none := hcontent.label.symm.trans rfl
  have hdirective : isDirective line = false := hcontent.directive.symm.trans rfl
  refine ⟨hcontent, fun level => ?_⟩
  rw [renderLine_eq, renderLine_eq s level line, hcontent.directive, hcontent.label, hcontent.code,
    hdirective, hlabel]
  rfl

theorem RenderedAlike.of_renderLine {s t : Style} (h : t.labelsInMargin = true ∨ s.labelsInMargin = false)
    (level : Int) (line : Text) : RenderedAlike t (renderLine s level line) line :=
  ⟨sameContent_renderLine s level line, fun l => renderLine_renderLine h level l line⟩

theorem formatLines_congr {o : Options} {as bs : List Text}
    (h : List.Forall₂ (RenderedAlike o.toStyle) as bs) : formatLines o as = formatLines o bs := by
  have hlevels : levels o.toDialect as = levels o.toDialect bs :=
    levelsFrom_congr (h.imp fun _ _ hab => ⟨hab.content.isBlankText, hab.content.classify _⟩)
  have hplace : ∀ ls, List.zipWith (place o.toStyle) as ls = List.zipWith (place o.toStyle) bs ls := by
    clear hlevels
    induction h with
    | nil => exact fun _ => rfl
    | cons hab _ ih =>
      intro ls
      cases ls with
      | nil => rfl
      | cons level ls =>
        rw [List.zipWith_cons_cons, List.zipWith_cons_cons, ih]
        cases level with
        | none => rfl
        | some level => rw [place, place, hab.render level]
  rw [formatLines, formatLines, hlevels, funext hplace]

/-! ### The lines of a result -/

theorem isLine_renderLine {s : Style} {level : Int} {line : Text} (hb : isBlankText line = false)
    (hfeed : '\n' ∉ line) : IsLine (renderLine s level line) where
  feed h := by
    rcases mem_renderLine h with h | h
    · exact hfeed h
    · exact absurd h (by decide)
  last h := absurd (renderLine_last hb h) (by decide)

theorem isLine_of_formatLines {o : Options} {lines out : List Text} (hfeed : ∀ l ∈ lines, '\n' ∉ l)
    (h : formatLines o lines = .ok out) : ∀ l ∈ out, IsLine l := by
  have hall : List.Forall₂ (fun _ l => IsLine l) lines out :=
    formatLines_forall₂ (fun _ _ _ => IsLine.nil)
      (fun line hl hb _ => isLine_renderLine hb (hfeed line hl)) h
  clear h
  induction hall with
  | nil => simp
  | cons hl _ ih =>
    intro l hmem
    rcases List.mem_cons.mp hmem with rfl | hmem
    · exact hl
    · exact ih (fun l hl => hfeed l (List.mem_cons_of_mem _ hl)) l hmem

theorem formatText_eq_ok_iff {o : Options} {t u : Text} :
    formatText o t = .ok u ↔
      ∃ out, formatLines o (splitLines t) = .ok out ∧ u = joinLines (lineEnding t) out := by
  simp only [formatText, map_eq_ok_iff, eq_comm (a := u)]

/-- The lines of a result are those that were rendered, and it has the ending of the text. -/
theorem splitLines_of_formatText {o : Options} {t u : Text} (h : formatText o t = .ok u) :
    formatLines o (splitLines t) = .ok (splitLines u) ∧ lineEnding u = lineEnding t := by
  obtain ⟨out, hout, rfl⟩ := formatText_eq_ok_iff.mp h
  have hlines := isLine_of_formatLines (fun l hl => feed_not_mem_splitLines hl) hout
  have hlength := length_formatLines hout
  have hne : out ≠ [] := by
    rw [← List.length_pos_iff, hlength, List.length_pos_iff]
    exact splitLines_ne_nil t
  rw [splitLines_joinLines _ hne hlines]
  exact ⟨hout, lineEnding_joinLines_lineEnding hlines hlength⟩

theorem renderedAlike_of_formatText {o o' : Options} {t u : Text}
    (hmargin : o'.labelsInMargin = true ∨ o.labelsInMargin = false) (h : formatText o t = .ok u) :
    List.Forall₂ (RenderedAlike o'.toStyle) (splitLines u) (splitLines t) :=
  (formatLines_forall₂ (R := fun a b => RenderedAlike o'.toStyle b a)
    (fun _ _ hb => .of_blank _ hb) (fun line _ _ level => .of_renderLine hmargin level line)
    (splitLines_of_formatText h).1).flip

/-! ### A second pass -/

theorem editsFrom_self (n : Nat) (lines : List Text) : editsFrom n lines lines = [] := by
  induction lines generalizing n with
  | nil => rfl
  | cons line lines ih => rw [editsFrom, if_pos rfl, ih]

theorem formatText_absorb {o o' : Options} {t u : Text}
    (hmargin : o'.labelsInMargin = true ∨ o.labelsInMargin = false) (h : formatText o t = .ok u) :
    formatText o' u = formatText o' t := by
  rw [formatText, formatText, formatLines_congr (renderedAlike_of_formatText hmargin h),
    (splitLines_of_formatText h).2]

/-- A formatted text is its own result. -/
theorem formatText_fixed {o : Options} {t u : Text} (h : formatText o t = .ok u) :
    formatText o u = .ok u := by
  refine (formatText_absorb ?_ h).trans h
  cases o.labelsInMargin <;> simp

theorem formatEdits_fixed {o : Options} {t u : Text} (h : formatText o t = .ok u) :
    formatEdits o u = .ok ⟨u, []⟩ := by
  have hfixed := formatText_fixed h
  obtain ⟨out, hout, hjoin⟩ := formatText_eq_ok_iff.mp hfixed
  have hsplit : out = splitLines u := by
    have hlines := (splitLines_of_formatText hfixed).1
    rw [hout, Except.ok.injEq] at hlines
    exact hlines
  subst hsplit
  rw [formatEdits, hout]
  simp only [Except.map, ← hjoin, editsFrom_self]

/-- **Absorption.**  A text that has been formatted is formatted, with whatever options, as the text it
came from: with the same result or the same error.  Only a label that was set in the margin cannot be
moved back by options that leave labels where they are.  With the options it was formatted with, a text
does not change again and no line of it is edited. -/
theorem formatText_of_formatted {o : Options} {t u : Text} (h : formatText o t = .ok u) :
    (∀ o' : Options, o'.labelsInMargin = true ∨ o.labelsInMargin = false →
      formatText o' u = formatText o' t) ∧
    formatText o u = .ok u ∧ formatEdits o u = .ok ⟨u, []⟩ :=
  ⟨fun _ hmargin => formatText_absorb hmargin h, formatText_fixed h, formatEdits_fixed h⟩

theorem formatText_of_formatted_loop :
    let t := "100 FOR I = 1 TO 3\r\nX: PRINT \"END\"\n\nNEXT I ;* done  \r\n".toList
    let u := "100  FOR I = 1 TO 3\r\nX:      PRINT \"END\"\r\n\r\n     NEXT I ;* done\r\n".toList
    let o' : Options := { margin := 0, indent := -2, ignoreCase := true }
    formatText {} t = .ok u ∧ o'.labelsInMargin = true ∧ formatText o' u = formatText o' t ∧
      formatText {} u = .ok u ∧ formatEdits {} u = .ok ⟨u, []⟩ := by
  intro t u o'
  have h : formatText {} t = .ok u := by decide +kernel
  obtain ⟨habsorb, hfixed, hedits⟩ := formatText_of_formatted h
  exact ⟨h, rfl, habsorb o' (Or.inl rfl), hfixed, hedits⟩

end PickIndent
