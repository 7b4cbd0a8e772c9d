import PickIndent.Proofs.Document.Edits

/-!
# Terminators — the lines of a result and what ends them

A line feed ends a line, with the carriage return before it if there is one (`mem_endings_append`), and the ending of
a text is the one that its endings vote for (`lineEnding_eq_crlf_iff`).  A result has the lines that were rendered, one
for each line of the text, and all of them end alike (`formatText_keeps_lines`).
-/

namespace PickIndent

/-! ### The vote -/

theorem length_endings (t : Text) : (endings t).length = t.count '\n' := by
  fun_induction endings t with
  | case1 t ih => rw [List.length_cons, ih, List.count_cons_of_ne (by decide), List.count_cons_self]
  | case2 t ih => rw [List.length_cons, ih, List.count_cons_self]
  | case3 c t _ hc ih => rw [ih, List.count_cons_of_ne hc]
  | case4 => rfl

theorem count_crlf_endings (t : Text) : (endings t).count .crlf = countCrlf t := by
  fun_induction endings t with
  | case1 t ih => rw [List.count_cons_self, ih, countCrlf_crlf]
  | case2 t ih => rw [List.count_cons_of_ne (by decide), ih, countCrlf_cons (by decide)]
  | case3 c t hcrlf hc ih =>
    rw [ih]
    cases t with
    | nil => rfl
    | cons d t => rw [countCrlf, if_neg fun h => hcrlf t h.1 (by rw [h.2]), Nat.add_zero]
  | case4 => rfl

/-- A carriage return and a line feed are the ending of a text that has some, if they are at least half of all. -/
theorem lineEnding_eq_crlf_iff {t : Text} :
    lineEnding t = .crlf ↔ .crlf ∈ endings t ∧ (endings t).length ≤ 2 * (endings t).count .crlf := by
  rw [← List.count_pos_iff, count_crlf_endings, length_endings, lineEnding, Nat.mul_comm 2]
  split <;> simp_all

/-! ### Every line feed -/

/-- The endings of a text in two parts, which do not cut an ending in two. -/
theorem endings_append {a b : Text} (h : a.getLast? = some '\r' → b.head? ≠ some '\n') :
    endings (a ++ b) = endings a ++ endings b := by
  fun_induction endings a with
  | case1 t ih =>
    have hlater := ih fun ht => h (by simp [List.getLast?_cons, ht])
    rw [List.cons_append, List.cons_append, endings, hlater, List.cons_append]
  | case2 t ih =>
    have hlater := ih fun ht => h (by simp [List.getLast?_cons, ht])
    rw [List.cons_append, endings, hlater, List.cons_append]
  | case3 c t hcrlf hc ih =>
    have hcr : c = '\r' → (t ++ b).head? ≠ some '\n' := by
      rintro rfl
      cases t with
      | nil => exact h rfl
      | cons d t =>
        intro hd
        exact hcrlf t rfl (by rw [Option.some.inj hd])
    rw [List.cons_append, endings_cons hc hcr, ih fun ht => h (by simp [List.getLast?_cons, ht])]
  | case4 => rfl

/-- **A line feed is an ending of the text**, with the carriage return before it if there is one. -/
theorem mem_endings_append (a b : Text) :
    (if a.getLast? = some '\r' then .crlf else .lf) ∈ endings (a ++ '\n' :: b) := by
  split
  next hlast =>
    obtain ⟨front, rfl⟩ := List.getLast?_eq_some_iff.mp hlast
    rw [List.append_assoc, List.singleton_append, endings_append (by simp), endings]
    simp
  next hlast =>
    rw [endings_append fun h => absurd h hlast, endings]
    simp

/-! ### The result -/

/-- Every line feed of a result ends its line as the text votes. -/
theorem getLast?_eq_cr_iff {o : Options} {t a b : Text} (h : formatText o t = .ok (a ++ '\n' :: b)) :
    a.getLast? = some '\r' ↔ lineEnding t = .crlf := by
  obtain ⟨out, hout, hjoin⟩ := formatText_eq_ok_iff.mp h
  have hlines := isLine_of_formatLines (fun l hl => feed_not_mem_splitLines hl) hout
  have hmem := mem_endings_append a b
  rw [hjoin, endings_joinLines _ _ hlines] at hmem
  rw [← List.eq_of_mem_replicate hmem]
  split <;> simp [*]

/-- **The lines of a text and their endings survive.**  A result has the lines that were rendered, one for each line
of the text.  A blank line becomes empty, and no line ends in a blank.  All line feeds of the result have a carriage
return before them or none has, as the text votes: for carriage returns if it has an ending with one and at least
half of its endings are such.  The result votes as the text does. -/
theorem formatText_keeps_lines {o : Options} {t u : Text} (h : formatText o t = .ok u) :
    formatLines o (splitLines t) = .ok (splitLines u) ∧
    (splitLines u).length = (splitLines t).length ∧
    List.Forall₂ (fun line out => (isBlankText line = true → out = []) ∧ ∀ c ∈ out.getLast?, isBlank c = false)
      (splitLines t) (splitLines u) ∧
    (∀ a b, u = a ++ '\n' :: b → (a.getLast? = some '\r' ↔ lineEnding t = .crlf)) ∧
    lineEnding u = lineEnding t ∧
    (lineEnding t = .crlf ↔ .crlf ∈ endings t ∧ (endings t).length ≤ 2 * (endings t).count .crlf) := by
  obtain ⟨hlines, hending⟩ := splitLines_of_formatText h
  refine ⟨hlines, length_formatLines hlines, ?_, fun a b hu => ?_, hending, lineEnding_eq_crlf_iff⟩
  · refine formatLines_forall₂ (fun _ _ _ => ⟨fun _ => rfl, by simp⟩) (fun line _ hb level => ⟨?_, ?_⟩) hlines
    · simp [hb]
    · exact fun c hc => renderLine_last hb hc
  · exact getLast?_eq_cr_iff (hu ▸ h)

/-- A carriage return in front of an ending is a blank at the end of its line. -/
theorem formatText_keeps_lines_mixed :
    let t := "LOOP\r\n \t\nPRINT I\r\r\nREPEAT\u3000\r\n".toList
    let u := "     LOOP\r\n\r\n        PRINT I\r\n     REPEAT\r\n".toList
    let a := "     LOOP\r".toList
    let b := "\r\n        PRINT I\r\n     REPEAT\r\n".toList
    formatText {} t = .ok u ∧ formatLines {} (splitLines t) = .ok (splitLines u) ∧ u = a ++ '\n' :: b ∧
      a.getLast? = some '\r' ∧ lineEnding u = lineEnding t ∧ .crlf ∈ endings t ∧
      (endings t).length ≤ 2 * (endings t).count .crlf := by
  intro t u a b
  have h : formatText {} t = .ok u := by decide +kernel
  have hvote : lineEnding t = .crlf := by decide +kernel
  obtain ⟨hlines, -, -, hfeed, hending, hiff⟩ := formatText_keeps_lines h
  exact ⟨h, hlines, rfl, (hfeed a b rfl).mpr hvote, hending, hiff.mp hvote⟩

end PickIndent
