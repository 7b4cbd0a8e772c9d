import PickIndent.Proofs.Classification.Capitals
import PickIndent.Proofs.Document.Characters
import PickIndent.Proofs.Result

/-!
# Capitals of a document — ignoring case and writing in capitals

A program whose case is ignored is laid out as its capitals are when case counts (`formatText_capitals`): its lines
do the same to the nesting (`levelsFrom_capitals`), and the layout of a line knows no letters
(`renderLine_capitals`).  Only the four variants of a letter outside ASCII make a difference, as they are letters when
case is ignored and have no capital in ASCII.
-/

namespace PickIndent

/-! ### Layout -/

theorem renderLabelled_capitals (s : Style) (level : Int) (label rest : Text) :
    renderLabelled s level (capitals label) (capitals rest) = capitals (renderLabelled s level label rest) := by
  simp only [renderLabelled, capitals_eq_nil_iff, length_capitals]
  split
  · rfl
  split
  · rw [padTo_capitals, capitals_append, capitals_append, capitals_spaces]
  · rw [capitals_append]
    rfl

/-- **The layout of a line in capitals is its layout in capitals.** -/
theorem renderLine_capitals (s : Style) (level : Int) (line : Text) :
    renderLine s level (capitals line) = capitals (renderLine s level line) := by
  rw [renderLine, renderLine, isDirective_capitals, trimEnd_capitals, trim_capitals, splitLabel?_capitals]
  split
  · rfl
  cases splitLabel? (trim line) with
  | none => simp only [Option.map_none, capitals_append, capitals_spaces]
  | some p =>
    simp only [Option.map_some, capitalsPair, trim_capitals, renderLabelled_capitals]
    split <;> rfl

theorem place_capitals (s : Style) (line : Text) (level? : Option Int) :
    place s (capitals line) level? = capitals (place s line level?) := by
  cases level? with
  | none => rfl
  | some level => exact renderLine_capitals s level line

/-! ### Levels -/

/-- What is in capitals in the code of a line has no bearing on the nesting. -/
theorem visit_inCapitals (c : Classification) (final : Bool) (s : Nesting) :
    s.visit c.inCapitals final = s.visit c final := rfl

theorem levelsFrom_capitals (d : Dialect) {lines : List Text}
    (h : ∀ line ∈ lines, '\n' ∉ line ∧ NoVariants line) (n : Nat) (s : Nesting) :
    levelsFrom { d with ignoreCase := false } n s (lines.map capitals) =
      levelsFrom { d with ignoreCase := true } n s lines := by
  induction lines generalizing n s with
  | nil => rfl
  | cons line later ih =>
    obtain ⟨hfeed, hvariants⟩ := h line (by simp)
    have hblank : (later.map capitals).all isBlankText = later.all isBlankText := by
      rw [List.all_map]
      congr 1
      funext t
      exact isBlankText_capitals t
    have hlater := ih fun l hl => h l (List.mem_cons_of_mem line hl)
    rw [List.map_cons, levelsFrom, levelsFrom, isBlankText_capitals, classify_capitals d hfeed hvariants, hblank]
    split
    · rw [hlater]
    · cases classify { d with ignoreCase := true } line with
      | error e => rfl
      | ok c =>
        simp only [Except.map, visit_inCapitals]
        cases s.visit c (later.all isBlankText) with
        | error fault => rfl
        | ok p => simp only [hlater]

theorem formatLines_capitals (o : Options) {lines : List Text}
    (h : ∀ line ∈ lines, '\n' ∉ line ∧ NoVariants line) :
    formatLines { o with ignoreCase := false } (lines.map capitals) =
      (formatLines { o with ignoreCase := true } lines).map (List.map capitals) := by
  rw [formatLines, formatLines, levels, levels, levelsFrom_capitals o.toDialect h]
  cases levelsFrom { o.toDialect with ignoreCase := true } 1 .outermost lines with
  | error e => rfl
  | ok out =>
    refine congrArg Except.ok ?_
    rw [List.zipWith_map_left, List.map_zipWith]
    congr 1
    funext line level?
    exact place_capitals o.toStyle line level?

/-! ### Line endings -/

theorem crlf_capitals (c d : Char) : c.toUpper = '\r' ∧ d.toUpper = '\n' ↔ c = '\r' ∧ d = '\n' := by
  rw [toUpper_eq_iff (by decide), toUpper_eq_iff (by decide)]

theorem unifyEndings_capitals (t : Text) : unifyEndings (capitals t) = capitals (unifyEndings t) := by
  fun_induction unifyEndings t with
  | case1 c d t hcrlf ih =>
    rw [capitals_cons, capitals_cons, unifyEndings, if_pos ((crlf_capitals c d).mpr hcrlf)]
    exact ih
  | case2 c d t hother ih =>
    rw [capitals_cons, capitals_cons, unifyEndings, if_neg ((crlf_capitals c d).not.mpr hother), capitals_cons]
    exact congrArg (c.toUpper :: ·) ih
  | case3 t hshort =>
    obtain _ | ⟨c, _ | ⟨d, t⟩⟩ := t
    · rfl
    · rfl
    · exact absurd rfl (hshort c d t)

theorem splitLines_capitals (t : Text) : splitLines (capitals t) = (splitLines t).map capitals := by
  rw [splitLines, splitLines, unifyEndings_capitals, splitOn_capitals (by decide)]

theorem countCrlf_capitals (t : Text) : countCrlf (capitals t) = countCrlf t := by
  fun_induction countCrlf t with
  | case1 c d t ih =>
    rw [capitals_cons, capitals_cons, countCrlf, ← capitals_cons, ih]
    simp only [crlf_capitals]
  | case2 t hshort =>
    obtain _ | ⟨c, _ | ⟨d, t⟩⟩ := t
    · rfl
    · rfl
    · exact absurd rfl (hshort c d t)

theorem lineEnding_capitals (t : Text) : lineEnding (capitals t) = lineEnding t := by
  rw [lineEnding, lineEnding, countCrlf_capitals, count_capitals (by decide)]

theorem joinLines_capitals (e : LineEnding) : ∀ lines : List Text,
    joinLines e (lines.map capitals) = capitals (joinLines e lines)
  | [] => rfl
  | [line] => by rw [List.map_singleton, joinLines_singleton, joinLines_singleton]
  | line :: next :: later => by
    have hending : capitals e.text = e.text := by cases e <;> rfl
    rw [List.map_cons, List.map_cons, joinLines_cons_cons, joinLines_cons_cons, capitals_append, capitals_append,
      hending, ← joinLines_capitals e (next :: later), List.map_cons]

/-! ### Documents -/

/-- **Ignoring case is writing in capitals.**  The capitals of a text without variants are formatted where the text
is with case ignored, into the capitals of its result, and otherwise fail with the same error. -/
theorem formatText_capitals (o : Options) {t : Text} (h : NoVariants t) :
    formatText { o with ignoreCase := false } (capitals t) =
      (formatText { o with ignoreCase := true } t).map capitals := by
  have hlines : ∀ line ∈ splitLines t, '\n' ∉ line ∧ NoVariants line := fun line hline =>
    ⟨feed_not_mem_splitLines hline, h.mono fun c hc => mem_of_mem_splitLines hline hc⟩
  rw [formatText, formatText, splitLines_capitals, lineEnding_capitals, formatLines_capitals o hlines]
  cases formatLines { o with ignoreCase := true } (splitLines t) with
  | error e => rfl
  | ok out => exact congrArg Except.ok (joinLines_capitals (lineEnding t) out)

theorem formatText_capitals_loop :
    let o : Options := { margin := 2 }
    let t := "loop\r\n10 if é = 'x' then\r\nend ;* done\nRepeat".toList
    let u := "  loop\r\n10   if é = 'x' then\r\n     end ;* done\r\n  Repeat".toList
    NoVariants t ∧ formatText { o with ignoreCase := true } t = .ok u ∧
      formatText { o with ignoreCase := false } (capitals t) = .ok (capitals u) := by
  intro o t u
  have hall : t.all (decide <| · ∉ variants) = true := by decide +kernel
  have hvariants : NoVariants t := fun c hc => of_decide_eq_true (List.all_eq_true.mp hall c hc)
  have hformat : formatText { o with ignoreCase := true } t = .ok u := by decide +kernel
  refine ⟨hvariants, hformat, ?_⟩
  rw [formatText_capitals o hvariants, hformat]
  rfl

end PickIndent
