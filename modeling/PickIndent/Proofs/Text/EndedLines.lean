import PickIndent.Text.Lines

/-!
# Lines with their ends — the one way to cut a text

A text is cut behind every end of a line, where a carriage return and a line feed are one end (`CutAtEnds`).  There is
one way to do so, and it is what `endedLines` comes to (`endedLines_eq_iff`): every line but the last ends at an end
and holds no other (`exists_end_of_mem_dropLast`).
-/

namespace PickIndent

variable {c : Char} {line t : Text} {lines : List Text}

/-- What ends a line. -/
inductive LineEnd : Text → Prop
  | char {c : Char} (hc : endsLine c = true) : LineEnd [c]
  | crlf : LineEnd ['\r', '\n']

/-- Lines with an end behind each and none inside. Only the last one may be without, and then it is not empty. A
carriage return does not end a line by itself if a line feed follows. -/
inductive CutAtEnds : List Text → Prop
  | nil : CutAtEnds []
  | last {line : Text} (hne : line ≠ []) (hfree : ∀ c ∈ line, endsLine c = false) : CutAtEnds [line]
  | cons {body stop : Text} {later : List Text} (hfree : ∀ c ∈ body, endsLine c = false) (hstop : LineEnd stop)
      (hcrlf : stop = ['\r'] → later.flatten.head? ≠ some '\n') (hlater : CutAtEnds later) :
      CutAtEnds ((body ++ stop) :: later)

/-! ### The characters of a text, one by one -/

theorem endedLines_cons_free (hc : endsLine c = false) (t : Text) :
    endedLines (c :: t) = consFirst c (endedLines t) := by
  cases t with
  | nil => rfl
  | cons d t =>
    have hne : c ≠ '\r' := by
      rintro rfl
      exact absurd hc (by decide)
    rw [endedLines, if_neg (by simp [hne]), if_neg (by simp [hc])]

theorem endedLines_cons_end (hc : endsLine c = true) (hcrlf : c = '\r' → t.head? ≠ some '\n') :
    endedLines (c :: t) = [c] :: endedLines t := by
  cases t with
  | nil => rfl
  | cons d t =>
    have hne : ¬(c = '\r' ∧ d = '\n') := fun h => hcrlf h.1 (by rw [h.2]; rfl)
    rw [endedLines, if_neg hne, if_pos hc]

theorem endedLines_crlf (t : Text) : endedLines ('\r' :: '\n' :: t) = ['\r', '\n'] :: endedLines t := by
  rw [endedLines, if_pos ⟨rfl, rfl⟩, endedLines_cons_end rfl (by simp)]
  rfl

theorem endedLines_append_of_free {body : Text} (hfree : ∀ c ∈ body, endsLine c = false)
    (h : endedLines t = line :: lines) : endedLines (body ++ t) = (body ++ line) :: lines := by
  induction body with
  | nil => exact h
  | cons c body ih =>
    obtain ⟨hc, hbody⟩ := List.forall_mem_cons.mp hfree
    rw [List.cons_append, endedLines_cons_free hc, ih hbody]
    rfl

/-! ### All lines -/

theorem CutAtEnds.stop {stop : Text} (hstop : LineEnd stop)
    (hcrlf : stop = ['\r'] → lines.flatten.head? ≠ some '\n') (h : CutAtEnds lines) : CutAtEnds (stop :: lines) :=
  @CutAtEnds.cons [] stop lines (by simp) hstop hcrlf h

theorem CutAtEnds.tail : CutAtEnds lines → CutAtEnds lines.tail
  | .nil => .nil
  | .last .. => .nil
  | .cons _ _ _ hlater => hlater

theorem CutAtEnds.consFirst (hc : endsLine c = false) (h : CutAtEnds lines) : CutAtEnds (consFirst c lines) := by
  have hcons : ∀ {body : Text}, (∀ d ∈ body, endsLine d = false) → ∀ d ∈ c :: body, endsLine d = false :=
    fun hbody => List.forall_mem_cons.mpr ⟨hc, hbody⟩
  cases h with
  | nil => exact .last (by simp) (hcons (by simp))
  | last _ hfree => exact .last (by simp) (hcons hfree)
  | cons hfree hstop hcrlf hlater => exact .cons (hcons hfree) hstop hcrlf hlater

theorem cutAtEnds_endedLines (t : Text) : CutAtEnds (endedLines t) := by
  fun_induction endedLines t with
  | case1 => exact .nil
  | case2 c =>
    cases hc : endsLine c with
    | false => exact .last (by simp) (by simpa using hc)
    | true => exact .stop (.char hc) (by simp) .nil
  | case3 c d t h ih =>
    obtain ⟨rfl, rfl⟩ := h
    -- the line feed would be a line by itself, and what is cut off behind it stays so
    rw [endedLines_cons_end rfl (by simp)] at ih ⊢
    exact .stop .crlf (by simp) ih.tail
  | case4 c d t hcrlf hc ih =>
    refine .stop (.char hc) (fun hstop => ?_) ih
    obtain rfl : c = '\r' := by simpa using hstop
    rw [flatten_endedLines]
    simpa using hcrlf
  | case5 c d t _ hc ih => exact ih.consFirst (by simpa using hc)

theorem CutAtEnds.endedLines_flatten (h : CutAtEnds lines) : endedLines lines.flatten = lines := by
  induction h with
  | nil => rfl
  | @last line hne hfree =>
    rw [List.flatten_singleton]
    rw [← List.dropLast_concat_getLast hne] at hfree ⊢
    exact endedLines_append_of_free (fun c hc => hfree c (List.mem_append_left _ hc)) rfl
  | @cons body stop later hfree hstop hcrlf _ ih =>
    rw [List.flatten_cons, List.append_assoc]
    refine endedLines_append_of_free hfree ?_
    cases hstop with
    | char hc => rw [List.singleton_append, endedLines_cons_end hc fun h => hcrlf (by rw [h]), ih]
    | crlf => rw [List.cons_append, List.cons_append, List.nil_append, endedLines_crlf, ih]

/-- **A text has one way to be cut at its ends.** -/
theorem endedLines_eq_iff : endedLines t = lines ↔ CutAtEnds lines ∧ lines.flatten = t := by
  constructor
  · rintro rfl
    exact ⟨cutAtEnds_endedLines t, flatten_endedLines t⟩
  · rintro ⟨h, rfl⟩
    exact h.endedLines_flatten

theorem CutAtEnds.exists_end (h : CutAtEnds lines) (hline : line ∈ lines.dropLast) :
    ∃ body stop, line = body ++ stop ∧ LineEnd stop ∧ ∀ c ∈ body, endsLine c = false := by
  induction h with
  | nil => simp at hline
  | last => simp at hline
  | @cons body stop later hfree hstop _ _ ih =>
    cases later with
    | nil => simp at hline
    | cons next later =>
      rw [List.dropLast_cons_cons, List.mem_cons] at hline
      rcases hline with rfl | hline
      · exact ⟨body, stop, rfl, hstop, hfree⟩
      · exact ih hline

/-- Every line but the last ends at an end and holds no other. -/
theorem exists_end_of_mem_dropLast (h : line ∈ (endedLines t).dropLast) :
    ∃ body stop, line = body ++ stop ∧ LineEnd stop ∧ ∀ c ∈ body, endsLine c = false :=
  (cutAtEnds_endedLines t).exists_end h

end PickIndent
