import PickIndent.Proofs.Document.Absorption

/-!
# Characters — what the formatted text is made of

Every character of the formatted text is a space or one of the text (`mem_formatText`): the characters of its
lines are, and its line ending is one that the text has.
-/

namespace PickIndent

/-! ### Cutting and joining -/

theorem unifyEndings_sublist (t : Text) : (unifyEndings t).Sublist t := by
  fun_induction unifyEndings t with
  | case1 c d t _ ih => exact ih.cons c
  | case2 c d t _ ih => exact ih.cons_cons c
  | case3 => exact List.Sublist.refl _

/-- Every character of a line is one of the joined text. -/
theorem mem_joinLines_of_mem (e : LineEnding) {l : Text} {c : Char} (hc : c ∈ l) :
    ∀ {ls : List Text}, l ∈ ls → c ∈ joinLines e ls
  | [m], hl => by
    rwa [joinLines_singleton, ← List.mem_singleton.mp hl]
  | m :: n :: ls, hl => by
    rw [joinLines_cons_cons]
    rcases List.mem_cons.mp hl with rfl | hl
    · simp [hc]
    · simp [mem_joinLines_of_mem e hc hl]

theorem mem_of_mem_splitLines {t l : Text} {c : Char} (hl : l ∈ splitLines t) (hc : c ∈ l) : c ∈ t := by
  have hjoin : joinLines .lf (splitLines t) = unifyEndings t := List.intercalate_splitOn '\n'
  apply (unifyEndings_sublist t).subset
  rw [← hjoin]
  exact mem_joinLines_of_mem .lf hc hl

/-- A line ending stands only between two lines. -/
theorem mem_joinLines {e : LineEnding} {c : Char} :
    ∀ {ls : List Text}, c ∈ joinLines e ls → (∃ l ∈ ls, c ∈ l) ∨ 1 < ls.length ∧ c ∈ e.text
  | [], h => by simp [joinLines] at h
  | [l], h => by
    rw [joinLines_singleton] at h
    exact Or.inl ⟨l, by simp, h⟩
  | l :: m :: ls, h => by
    rw [joinLines_cons_cons, List.mem_append, List.mem_append] at h
    rcases h with h | h | h
    · exact Or.inl ⟨l, by simp, h⟩
    · exact Or.inr ⟨by simp, h⟩
    · rcases mem_joinLines h with ⟨n, hn, h⟩ | ⟨-, h⟩
      · exact Or.inl ⟨n, List.mem_cons_of_mem _ hn, h⟩
      · exact Or.inr ⟨by simp, h⟩

theorem countCrlf_eq_zero {t : Text} (h : '\r' ∉ t) : countCrlf t = 0 := by
  fun_induction countCrlf t with
  | case1 c d t ih =>
    have hc : ¬(c = '\r' ∧ d = '\n') := fun hcrlf => h (by simp [hcrlf.1])
    rw [ih (fun hmem => h (List.mem_cons_of_mem c hmem)), if_neg hc]
  | case2 => rfl

/-- The characters of the line ending occur in a text of several lines. -/
theorem mem_of_mem_lineEnding {t : Text} {c : Char} (hfeed : '\n' ∈ t) (hc : c ∈ (lineEnding t).text) :
    c ∈ t := by
  unfold lineEnding at hc
  split at hc
  next hcrlf =>
    have hreturn : '\r' ∈ t := by
      by_contra hnot
      rw [countCrlf_eq_zero hnot] at hcrlf
      omega
    have hcases : c = '\r' ∨ c = '\n' := by simpa [LineEnding.text] using hc
    rcases hcases with rfl | rfl
    · exact hreturn
    · exact hfeed
  next =>
    obtain rfl : c = '\n' := by simpa [LineEnding.text] using hc
    exact hfeed

/-! ### Formatting -/

theorem mem_formatLines {o : Options} {lines out : List Text} (h : formatLines o lines = .ok out) {c : Char}
    {l : Text} (hl : l ∈ out) (hc : c ∈ l) : c = ' ' ∨ ∃ line ∈ lines, c ∈ line := by
  have hall : List.Forall₂ (fun _ l => ∀ c ∈ l, c = ' ' ∨ ∃ line ∈ lines, c ∈ line) lines out :=
    formatLines_forall₂ (by simp) (fun line hline _ level c hc => by
      rcases mem_renderLine hc with hc | hc
      · exact Or.inr ⟨line, hline, hc⟩
      · exact Or.inl hc) h
  obtain ⟨i, hi, rfl⟩ := List.mem_iff_getElem.mp hl
  have hlines : i < lines.length := by rw [hall.length_eq]; exact hi
  exact hall.get hlines hi c hc

/-- **Formatting adds no characters but spaces.** -/
theorem mem_formatText {o : Options} {t u : Text} (h : formatText o t = .ok u) {c : Char} (hc : c ∈ u) :
    c = ' ' ∨ c ∈ t := by
  obtain ⟨out, hout, rfl⟩ := formatText_eq_ok_iff.mp h
  rcases mem_joinLines hc with ⟨l, hl, hc⟩ | ⟨hlength, hc⟩
  · rcases mem_formatLines hout hl hc with hspace | ⟨line, hline, hc⟩
    · exact Or.inl hspace
    · exact Or.inr (mem_of_mem_splitLines hline hc)
  · rw [length_formatLines hout, length_splitLines] at hlength
    have hfeed : '\n' ∈ t := List.count_pos_iff.mp (by omega)
    exact Or.inr (mem_of_mem_lineEnding hfeed hc)

end PickIndent
