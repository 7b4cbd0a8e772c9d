import PickIndent.Document
import PickIndent.Proofs.Text.Pieces

/-!
# Line endings — joining lines and cutting the text again

A line has no line feed in it and no carriage return at its end (`IsLine`).  Lines that are joined with one
ending throughout come out of the text again (`splitLines_joinLines`), and the text votes for that ending
(`lineEnding_joinLines`).
-/

namespace PickIndent

/-- What can stand between two line endings. -/
structure IsLine (l : Text) : Prop where
  feed : '\n' ∉ l
  last : l.getLast? ≠ some '\r'

theorem IsLine.nil : IsLine [] := ⟨by simp, by simp⟩

theorem IsLine.of_cons {c d : Char} {l : Text} (h : IsLine (c :: d :: l)) : IsLine (d :: l) :=
  ⟨fun hd => h.feed (List.mem_cons_of_mem _ hd), h.last⟩

/-! ### Cutting -/

theorem unifyEndings_cons {c : Char} (hc : c ≠ '\r') (t : Text) :
    unifyEndings (c :: t) = c :: unifyEndings t := by
  cases t with
  | nil => rfl
  | cons d t => rw [unifyEndings, if_neg fun h => hc h.1]

theorem unifyEndings_cons_cons {d : Char} (hd : d ≠ '\n') (c : Char) (t : Text) :
    unifyEndings (c :: d :: t) = c :: unifyEndings (d :: t) := by
  rw [unifyEndings, if_neg fun h => hd h.2]

theorem unifyEndings_crlf (t : Text) : unifyEndings ('\r' :: '\n' :: t) = '\n' :: unifyEndings t := by
  rw [unifyEndings, if_pos ⟨rfl, rfl⟩, unifyEndings_cons (by decide)]

theorem count_unifyEndings (t : Text) : (unifyEndings t).count '\n' = t.count '\n' := by
  fun_induction unifyEndings t with
  | case1 c d t h ih =>
    obtain ⟨rfl, rfl⟩ := h
    rw [ih, List.count_cons_of_ne (b := '\r') (by decide)]
  | case2 c d t h ih => rw [List.count_cons, ih, ← List.count_cons]
  | case3 => rfl

theorem feed_not_mem_splitLines {t l : Text} (h : l ∈ splitLines t) : '\n' ∉ l :=
  not_mem_of_mem_splitOn h

theorem splitLines_ne_nil (t : Text) : splitLines t ≠ [] := List.splitOn_ne_nil _ _

/-- A text has one line more than it has line feeds. -/
theorem length_splitLines (t : Text) : (splitLines t).length = t.count '\n' + 1 := by
  rw [splitLines, length_splitOn, count_unifyEndings]

/-! ### Counting the endings -/

theorem countCrlf_cons {c : Char} (hc : c ≠ '\r') (t : Text) : countCrlf (c :: t) = countCrlf t := by
  cases t with
  | nil => rfl
  | cons d t => rw [countCrlf, if_neg fun h => hc h.1, Nat.add_zero]

theorem countCrlf_cons_cons {d : Char} (hd : d ≠ '\n') (c : Char) (t : Text) :
    countCrlf (c :: d :: t) = countCrlf (d :: t) := by
  rw [countCrlf, if_neg fun h => hd h.2, Nat.add_zero]

theorem countCrlf_crlf (t : Text) : countCrlf ('\r' :: '\n' :: t) = countCrlf t + 1 := by
  rw [countCrlf, if_pos ⟨rfl, rfl⟩, countCrlf_cons (by decide)]

/-- Every carriage return that is counted stands before a line feed of its own. -/
theorem countCrlf_le_count : ∀ t : Text, countCrlf t ≤ t.count '\n'
  | [] => Nat.le_refl 0
  | [c] => Nat.zero_le _
  | c :: d :: t => by
    by_cases h : c = '\r' ∧ d = '\n'
    · obtain ⟨rfl, rfl⟩ := h
      have ih := countCrlf_le_count t
      rw [countCrlf_crlf, List.count_cons_of_ne (by decide), List.count_cons_self]
      omega
    · have ih := countCrlf_le_count (d :: t)
      have hcount : (d :: t).count '\n' ≤ (c :: d :: t).count '\n' := List.count_le_count_cons
      rw [countCrlf, if_neg h]
      omega

/-! ### Lines in a row -/

/-- Up to the end of a line nothing is cut, whatever follows. -/
theorem unifyEndings_line_append {l : Text} (h : IsLine l) (t : Text) :
    unifyEndings (l ++ t) = l ++ unifyEndings t := by
  induction l with
  | nil => rfl
  | cons c l ih =>
    cases l with
    | nil => exact unifyEndings_cons (fun hc => h.last (by rw [hc]; rfl)) t
    | cons d l =>
      have hline := h.of_cons
      have hd : d ≠ '\n' := fun hd => hline.feed (by simp [hd])
      rw [List.cons_append, List.cons_append, unifyEndings_cons_cons hd, ← List.cons_append, ih hline]
      rfl

theorem countCrlf_line_append {l : Text} (h : IsLine l) (t : Text) :
    countCrlf (l ++ t) = countCrlf t := by
  induction l with
  | nil => rfl
  | cons c l ih =>
    cases l with
    | nil => exact countCrlf_cons (fun hc => h.last (by rw [hc]; rfl)) t
    | cons d l =>
      have hline := h.of_cons
      have hd : d ≠ '\n' := fun hd => hline.feed (by simp [hd])
      rw [List.cons_append, List.cons_append, countCrlf_cons_cons hd, ← List.cons_append, ih hline]

theorem unifyEndings_ending_append (e : LineEnding) (t : Text) :
    unifyEndings (e.text ++ t) = '\n' :: unifyEndings t := by
  cases e with
  | lf => exact unifyEndings_cons (by decide) t
  | crlf => exact unifyEndings_crlf t

theorem countCrlf_ending_append (e : LineEnding) (t : Text) :
    countCrlf (e.text ++ t) = countCrlf t + if e = .crlf then 1 else 0 := by
  cases e with
  | lf => exact countCrlf_cons (by decide) t
  | crlf => exact countCrlf_crlf t

/-! ### Joining -/

theorem joinLines_singleton (e : LineEnding) (l : Text) : joinLines e [l] = l :=
  List.intercalate_singleton

theorem joinLines_cons_cons (e : LineEnding) (l m : Text) (ls : List Text) :
    joinLines e (l :: m :: ls) = l ++ (e.text ++ joinLines e (m :: ls)) := by
  rw [joinLines, joinLines, List.intercalate_cons_cons, List.append_assoc]

theorem unifyEndings_joinLines (e : LineEnding) :
    ∀ ls : List Text, (∀ l ∈ ls, IsLine l) → unifyEndings (joinLines e ls) = ['\n'].intercalate ls
  | [], _ => rfl
  | [l], h => by
    have hl := unifyEndings_line_append (h l (by simp)) []
    rw [List.append_nil] at hl
    rw [joinLines_singleton, hl, List.intercalate_singleton]
    exact List.append_nil l
  | l :: m :: ls, h => by
    have ih := unifyEndings_joinLines e (m :: ls) fun k hk => h k (List.mem_cons_of_mem _ hk)
    rw [joinLines_cons_cons, unifyEndings_line_append (h l (by simp)), unifyEndings_ending_append, ih,
      List.intercalate_cons_cons, List.append_assoc]
    rfl

theorem countCrlf_joinLines (e : LineEnding) :
    ∀ ls : List Text, (∀ l ∈ ls, IsLine l) →
      countCrlf (joinLines e ls) = if e = .crlf then ls.length - 1 else 0
  | [], _ => by simp [joinLines, countCrlf]
  | [l], h => by
    have hl := countCrlf_line_append (h l (by simp)) []
    rw [List.append_nil] at hl
    simp [joinLines_singleton, hl, countCrlf]
  | l :: m :: ls, h => by
    have ih := countCrlf_joinLines e (m :: ls) fun k hk => h k (List.mem_cons_of_mem _ hk)
    rw [joinLines_cons_cons, countCrlf_line_append (h l (by simp)), countCrlf_ending_append, ih]
    split <;> simp

/-- **Joined lines come out again**, with either ending. -/
theorem splitLines_joinLines (e : LineEnding) {ls : List Text} (hne : ls ≠ []) (h : ∀ l ∈ ls, IsLine l) :
    splitLines (joinLines e ls) = ls := by
  rw [splitLines, unifyEndings_joinLines e ls h]
  exact List.splitOn_intercalate '\n' (fun l hl => (h l hl).feed) hne

theorem count_joinLines (e : LineEnding) {ls : List Text} (hne : ls ≠ []) (h : ∀ l ∈ ls, IsLine l) :
    (joinLines e ls).count '\n' = ls.length - 1 := by
  have hlength := length_splitLines (joinLines e ls)
  rw [splitLines_joinLines e hne h] at hlength
  omega

/-- Two or more lines vote for the ending they were joined with; a single line has no ending. -/
theorem lineEnding_joinLines (e : LineEnding) {ls : List Text} (hne : ls ≠ []) (h : ∀ l ∈ ls, IsLine l) :
    lineEnding (joinLines e ls) = if ls.length = 1 then .lf else e := by
  have hpos : 0 < ls.length := List.length_pos_iff.mpr hne
  rw [lineEnding, countCrlf_joinLines e ls h, count_joinLines e hne h]
  cases e with
  | lf => simp
  | crlf =>
    by_cases hone : ls.length = 1
    · simp [hone]
    · rw [if_pos (by simp only [if_true]; omega), if_neg hone]

/-- Lines in the place of the lines of a text, joined with its ending, vote for that ending. -/
theorem lineEnding_joinLines_lineEnding {t : Text} {ls : List Text} (h : ∀ l ∈ ls, IsLine l)
    (hlength : ls.length = (splitLines t).length) :
    lineEnding (joinLines (lineEnding t) ls) = lineEnding t := by
  rw [length_splitLines] at hlength
  have hne : ls ≠ [] := List.length_pos_iff.mp (by omega)
  rw [lineEnding_joinLines _ hne h]
  split
  · have hle := countCrlf_le_count t
    rw [lineEnding, if_neg (by omega)]
  · rfl

end PickIndent
