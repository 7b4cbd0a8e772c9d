import PickIndent.Classification
import PickIndent.Layout
import PickIndent.Proofs.Label.Grammar
import PickIndent.Proofs.Text.Trim

/-!
# The content of a line — what rendering leaves as it is

Rendering moves a line and sets the gap behind its label, and nothing else: a rendered line has the label
and the code of the line and is a directive if the line is one (`sameContent_renderLine`).  Lines of the
same content are classified alike, and rendered alike as long as labels stand in the margin.
-/

namespace PickIndent

/-! ### Lines of the same content -/

/-- Two lines that agree up to the blanks around them and behind their label. -/
structure SameContent (a b : Text) : Prop where
  directive : isDirective a = isDirective b
  label : label? a = label? b
  code : dropLabel a = dropLabel b

theorem SameContent.of_trim {a b : Text} (h : trim a = trim b) : SameContent a b where
  directive := by rw [isDirective, isDirective, h]
  label := by rw [label?, label?, h]
  code := by rw [dropLabel, dropLabel, h]

theorem IsLabel.ne_nil {l : Text} (h : IsLabel l) : l ≠ [] := by
  rcases h with ⟨c, u, -, -, rfl⟩ | ⟨d, ds, f, colon, -, -, -, rfl⟩ <;> simp

theorem IsLabel.head {l : Text} (h : IsLabel l) : l.head? ≠ some '!' := by
  rcases h with ⟨c, u, hc, -, rfl⟩ | ⟨d, ds, f, colon, hd, -, -, rfl⟩
  · intro hhead
    obtain rfl : c = '!' := by simpa using hhead
    exact absurd hc (by decide)
  · intro hhead
    obtain rfl : d = '!' := by simpa using hhead
    exact absurd (hd '!' (by simp)) (by decide +kernel)

/-- The label that a trimmed line begins with, and what follows it. -/
theorem splitLabel?_trim_eq_some {line l r : Text} (h : splitLabel? (trim line) = some (l, r)) :
    IsLabel l ∧ trim line = l ++ r ∧ startsWithOrEnds isBlank r = true :=
  splitLabel?_eq_some_iff.mp h

theorem isDirective_of_splitLabel? {line l r : Text} (h : splitLabel? (trim line) = some (l, r)) :
    isDirective line = false := by
  obtain ⟨hl, ht, -⟩ := splitLabel?_trim_eq_some h
  rw [isDirective, ht, List.head?_append_of_ne_nil _ hl.ne_nil]
  simpa using hl.head

theorem SameContent.of_splitLabel? {a b l r r' : Text} (ha : splitLabel? (trim a) = some (l, r))
    (hb : splitLabel? (trim b) = some (l, r')) (hr : trim r = trim r') : SameContent a b where
  directive := by rw [isDirective_of_splitLabel? ha, isDirective_of_splitLabel? hb]
  label := by rw [label?, label?, ha, hb]; rfl
  code := by simp only [dropLabel, ha, hb, hr]

theorem splitLabel?_eq_none_iff {line : Text} : splitLabel? (trim line) = none ↔ label? line = none := by
  rw [label?, Option.map_eq_none_iff]

theorem dropLabel_of_label?_eq_none {line : Text} (h : label? line = none) : dropLabel line = trim line := by
  rw [dropLabel, splitLabel?_eq_none_iff.mpr h]

theorem label?_of_isDirective {line : Text} (h : isDirective line = true) : label? line = none := by
  rw [← splitLabel?_eq_none_iff, Option.eq_none_iff_forall_ne_some]
  rintro ⟨l, r⟩ hlr
  rw [isDirective_of_splitLabel? hlr] at h
  exact Bool.noConfusion h

theorem isBlankText_iff_content {line : Text} :
    isBlankText line = true ↔ label? line = none ∧ dropLabel line = [] := by
  constructor
  · intro h
    have htrim : trim line = [] := trim_eq_nil_iff.mpr h
    have hnone : label? line = none := by rw [label?, htrim]; rfl
    exact ⟨hnone, by rw [dropLabel_of_label?_eq_none hnone, htrim]⟩
  · rintro ⟨hnone, hcode⟩
    rwa [dropLabel_of_label?_eq_none hnone, trim_eq_nil_iff] at hcode

theorem SameContent.isBlankText {a b : Text} (h : SameContent a b) : isBlankText a = isBlankText b := by
  rw [Bool.eq_iff_iff, isBlankText_iff_content, isBlankText_iff_content, h.label, h.code]

theorem SameContent.classify (d : Dialect) {a b : Text} (h : SameContent a b) :
    classify d a = classify d b := by
  unfold PickIndent.classify codeOf
  rw [h.directive, h.code]
  split
  · rename_i hb
    have ha := h.directive.trans hb
    rw [← dropLabel_of_label?_eq_none (label?_of_isDirective ha), h.code,
      dropLabel_of_label?_eq_none (label?_of_isDirective hb)]
  · rfl

/-! ### The shape of a rendered line -/

theorem renderLabelled_nil (s : Style) (level : Int) (label : Text) :
    renderLabelled s level label [] = label := rfl

/-- The number of spaces between a label and the rest of its line. -/
def gapWidth (s : Style) (level : Int) (label : Text) : Int :=
  if label.length < s.margin ∨ 0 < s.indent * level then max (s.margin - label.length) 0 + max (s.indent * level) 0
  else 1

theorem gapWidth_pos (s : Style) (level : Int) (label : Text) : 0 < gapWidth s level label := by
  unfold gapWidth
  split <;> omega

theorem renderLabelled_eq (s : Style) (level : Int) (label : Text) {rest : Text} (hrest : rest ≠ []) :
    renderLabelled s level label rest = label ++ spaces (gapWidth s level label) ++ rest := by
  simp only [renderLabelled, gapWidth, if_neg hrest, spaces_ne_nil_iff]
  by_cases hroom : label.length < s.margin ∨ 0 < s.indent * level
  · rw [if_pos hroom, if_pos hroom, padTo, ← spaces_append_spaces, List.append_assoc label]
  · rw [if_neg hroom, if_neg hroom, List.append_assoc]
    rfl

/-- A label and the rest of its line are rendered with a gap of spaces between them. -/
theorem exists_gap (s : Style) (level : Int) (label : Text) {rest : Text} (hrest : rest ≠ []) :
    ∃ n : Int, 0 < n ∧ renderLabelled s level label rest = label ++ spaces n ++ rest :=
  ⟨gapWidth s level label, gapWidth_pos s level label, renderLabelled_eq s level label hrest⟩

/-- Up to blanks in front of it a rendered line is the trimmed line, or its label and its code with a gap
between them. -/
theorem exists_renderLine (s : Style) (level : Int) (line : Text) :
    ∃ lead core, isBlankText lead = true ∧ renderLine s level line = lead ++ core ∧
      (core = trim line ∨ s.labelsInMargin = true ∧ ∃ label rest n,
        splitLabel? (trim line) = some (label, rest) ∧ trim rest ≠ [] ∧ 0 < n ∧
          core = label ++ spaces n ++ trim rest) := by
  unfold renderLine
  split
  · obtain ⟨lead, hlead, hline⟩ := exists_append_trim line
    exact ⟨lead, trim line, hlead, hline, Or.inl rfl⟩
  split
  · refine ⟨spaces s.margin ++ spaces (s.indent * level), trim line, by simp, rfl, Or.inl rfl⟩
  · rename_i label rest hsplit
    split
    · rename_i hmargin
      by_cases hrest : trim rest = []
      · obtain ⟨-, htrim, -⟩ := splitLabel?_trim_eq_some hsplit
        have hnil : rest = [] :=
          (htrim ▸ trimmed_trim line).eq_nil_of_append_blank (trim_eq_nil_iff.mp hrest)
        refine ⟨[], trim line, rfl, ?_, Or.inl rfl⟩
        rw [hrest, renderLabelled_nil, htrim, hnil, List.append_nil, List.nil_append]
      · obtain ⟨n, hn, hrender⟩ := exists_gap s level label hrest
        exact ⟨[], _, rfl, hrender, Or.inr ⟨hmargin, label, rest, n, hsplit, hrest, hn, rfl⟩⟩
    · exact ⟨[], trim line, rfl, rfl, Or.inl rfl⟩

/-- A label with a gap behind it is the label that the text begins with. -/
theorem splitLabel?_gap {line label rest : Text} (h : splitLabel? (trim line) = some (label, rest))
    {n : Int} (hn : 0 < n) (t : Text) :
    splitLabel? (label ++ spaces n ++ t) = some (label, spaces n ++ t) := by
  obtain ⟨hl, -, -⟩ := splitLabel?_trim_eq_some h
  exact splitLabel?_eq_some_iff.mpr
    ⟨hl, List.append_assoc .., startsWithOrEnds_spaces_append hn t⟩

theorem trimmed_gap {line label rest gap : Text} (h : splitLabel? (trim line) = some (label, rest))
    (hrest : trim rest ≠ []) : Trimmed (label ++ gap ++ trim rest) := by
  obtain ⟨hl, htrim, -⟩ := splitLabel?_trim_eq_some h
  exact (htrim ▸ trimmed_trim line).splice (trimmed_trim rest) hl.ne_nil hrest

/-! ### What rendering keeps -/

/-- **Rendering keeps the content of a line.** -/
theorem sameContent_renderLine (s : Style) (level : Int) (line : Text) :
    SameContent (renderLine s level line) line := by
  obtain ⟨lead, core, hlead, hline, rfl | ⟨-, label, rest, n, hsplit, hrest, hn, rfl⟩⟩ :=
    exists_renderLine s level line
  · refine .of_trim ?_
    rw [hline, trim_append_of_blank_left hlead, trim_trim]
  · have htrim : trim (renderLine s level line) = label ++ spaces n ++ trim rest := by
      rw [hline, trim_append_of_blank_left hlead, (trimmed_gap hsplit hrest).trim_eq]
    refine .of_splitLabel? (htrim ▸ splitLabel?_gap hsplit hn _) hsplit ?_
    rw [trim_append_of_blank_left (isBlankText_spaces n), trim_trim]

/-- Labels that are left where they are: rendering changes only the blanks around the line. -/
theorem trim_renderLine {s : Style} (hs : s.labelsInMargin = false) (level : Int) (line : Text) :
    trim (renderLine s level line) = trim line := by
  obtain ⟨lead, core, hlead, hline, rfl | ⟨hmargin, -⟩⟩ := exists_renderLine s level line
  · rw [hline, trim_append_of_blank_left hlead, trim_trim]
  · rw [hs] at hmargin
    exact Bool.noConfusion hmargin

/-- Rendering in terms of the content of the line. -/
theorem renderLine_eq (s : Style) (level : Int) (line : Text) :
    renderLine s level line =
      if isDirective line then trimEnd line
      else match label? line with
        | none => spaces s.margin ++ spaces (s.indent * level) ++ dropLabel line
        | some label =>
          if s.labelsInMargin then renderLabelled s level label (dropLabel line) else trim line := by
  unfold renderLine label? dropLabel
  cases splitLabel? (trim line) <;> rfl

/-- **Rendering a rendered line is rendering the line**, unless a label was set in the margin that is not
wanted there. -/
theorem renderLine_renderLine {s t : Style} (h : t.labelsInMargin = true ∨ s.labelsInMargin = false)
    (k l : Int) (line : Text) : renderLine t l (renderLine s k line) = renderLine t l line := by
  have hsame := sameContent_renderLine s k line
  by_cases hdirective : isDirective line = true
  · have hrender : renderLine s k line = trimEnd line := by rw [renderLine_eq, if_pos hdirective]
    rw [renderLine_eq, hsame.directive, if_pos hdirective, hrender, trimEnd_trimEnd, renderLine_eq,
      if_pos hdirective]
  · rw [renderLine_eq, renderLine_eq t l line, hsame.directive, if_neg hdirective, if_neg hdirective,
      hsame.label, hsame.code]
    cases label? line with
    | none => rfl
    | some label =>
      rcases h with ht | hs
      · simp only [ht, if_true]
      · simp only [trim_renderLine hs]

/-- Rendering adds spaces and no other characters. -/
theorem mem_renderLine {s : Style} {level : Int} {line : Text} {c : Char}
    (h : c ∈ renderLine s level line) : c ∈ line ∨ c = ' ' := by
  have hspaces : ∀ n : Int, c ∈ spaces n → c = ' ' := fun n hc => List.eq_of_mem_replicate hc
  unfold renderLine at h
  split at h
  · exact Or.inl ((trimEnd_isPrefix line).subset h)
  split at h
  · rcases List.mem_append.mp h with hlead | htrim
    · rcases List.mem_append.mp hlead with h1 | h2
      · exact Or.inr (hspaces _ h1)
      · exact Or.inr (hspaces _ h2)
    · exact Or.inl (mem_of_mem_trim htrim)
  · rename_i label rest hsplit
    obtain ⟨-, htrim, -⟩ := splitLabel?_trim_eq_some hsplit
    have hlabel : c ∈ label → c ∈ line := fun hc =>
      mem_of_mem_trim (by rw [htrim]; exact List.mem_append_left _ hc)
    have hrest : c ∈ trim rest → c ∈ line := fun hc =>
      mem_of_mem_trim (by rw [htrim]; exact List.mem_append_right _ (mem_of_mem_trim hc))
    split at h
    · by_cases hnil : trim rest = []
      · rw [hnil, renderLabelled_nil] at h
        exact Or.inl (hlabel h)
      · obtain ⟨n, -, hrender⟩ := exists_gap s level label hnil
        rw [hrender, List.append_assoc] at h
        rcases List.mem_append.mp h with h | h
        · exact Or.inl (hlabel h)
        · rcases List.mem_append.mp h with h | h
          · exact Or.inr (hspaces _ h)
          · exact Or.inl (hrest h)
    · exact Or.inl (mem_of_mem_trim h)

/-- A rendered line does not end in a blank. -/
theorem renderLine_last {s : Style} {level : Int} {line : Text} (hline : isBlankText line = false)
    {c : Char} (h : (renderLine s level line).getLast? = some c) : isBlank c = false := by
  obtain ⟨lead, core, -, hrender, hcore⟩ := exists_renderLine s level line
  have htrimmed : Trimmed core ∧ core ≠ [] := by
    rcases hcore with rfl | ⟨-, label, rest, n, hsplit, hrest, -, rfl⟩
    · refine ⟨trimmed_trim line, fun h0 => ?_⟩
      rw [trim_eq_nil_iff.mp h0] at hline
      exact Bool.noConfusion hline
    · exact ⟨trimmed_gap hsplit hrest, by simp [hrest]⟩
  rw [hrender, List.getLast?_append_of_ne_nil _ htrimmed.2] at h
  exact htrimmed.1.last c h

end PickIndent
