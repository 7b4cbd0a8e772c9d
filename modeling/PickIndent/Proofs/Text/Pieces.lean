import PickIndent.Text.Basic

/-!
# Pieces of a text — cutting at a character

Documents are cut into lines, code into statements and paths into names, each at every occurrence of one character.
No piece holds that character, and what is put behind a text without it is put behind its last piece
(`exists_splitOn_append`).
-/

namespace PickIndent

variable {t piece : Text} {x c : Char}

theorem not_mem_of_mem_splitOn (h : piece ∈ t.splitOn x) : x ∉ piece := by
  induction t generalizing piece with
  | nil =>
    rw [List.splitOn_nil, List.mem_singleton] at h
    simp [h]
  | cons c t ih =>
    rw [List.splitOn_cons_eq_if_modifyHead] at h
    split at h
    · rcases List.mem_cons.mp h with rfl | h
      · simp
      · exact ih h
    · rename_i hc
      obtain ⟨m, ms, hms⟩ := List.exists_cons_of_ne_nil (List.splitOn_ne_nil x t)
      rw [hms, List.modifyHead_cons] at h
      rcases List.mem_cons.mp h with rfl | h
      · have hm := @ih m (by simp [hms])
        simp only [beq_iff_eq] at hc
        simp [hm, Ne.symm hc]
      · exact ih (by simp [hms, h])

theorem length_splitOn (t : Text) (x : Char) : (t.splitOn x).length = t.count x + 1 := by
  induction t with
  | nil => rfl
  | cons c t ih =>
    rw [List.splitOn_cons_eq_if_modifyHead, List.count_cons]
    split
    · rw [List.length_cons, ih]
    · rw [List.length_modifyHead, ih, Nat.add_zero]

theorem mem_of_mem_splitOn (hpiece : piece ∈ t.splitOn x) (hc : c ∈ piece) : c ∈ t := by
  induction t generalizing piece with
  | nil =>
    rw [List.splitOn_nil, List.mem_singleton] at hpiece
    rwa [hpiece] at hc
  | cons a t ih =>
    rw [List.splitOn_cons_eq_if_modifyHead] at hpiece
    split at hpiece
    · rcases List.mem_cons.mp hpiece with rfl | hpiece
      · simp at hc
      · exact List.mem_cons_of_mem a (ih hpiece hc)
    · obtain ⟨m, ms, hms⟩ := List.exists_cons_of_ne_nil (List.splitOn_ne_nil x t)
      rw [hms, List.modifyHead_cons] at hpiece
      rcases List.mem_cons.mp hpiece with rfl | hpiece
      · exact List.mem_cons.mpr ((List.mem_cons.mp hc).imp_right (ih (by simp [hms])))
      · exact List.mem_cons_of_mem a (ih (by simp [hms, hpiece]) hc)

/-- What is put behind a text is put behind its last piece. -/
theorem exists_splitOn_append (x : Char) (t : Text) :
    ∃ front last, ∀ s : Text, x ∉ s → (t ++ s).splitOn x = front ++ [last ++ s] := by
  by_cases hx : x ∈ t
  · obtain ⟨back, front, hreverse, hback⟩ := List.eq_append_cons_of_mem (List.mem_reverse.mpr hx)
    have ht : t = front.reverse ++ x :: back.reverse := by
      rw [← t.reverse_reverse, hreverse]
      simp
    refine ⟨front.reverse.splitOn x, back.reverse, fun s hs => ?_⟩
    have hpiece : x ∉ back.reverse ++ s := by simp [hback, hs]
    rw [ht, List.append_assoc, List.cons_append, List.splitOn_append_cons_self, List.splitOn_eq_singleton hpiece]
  · refine ⟨[], t, fun s hs => ?_⟩
    rw [List.splitOn_eq_singleton (by simp [hx, hs])]
    rfl

/-- The last piece is empty if and only if the text is or ends at a cut. -/
theorem getLast?_splitOn_eq_nil_iff : (t.splitOn x).getLast? = some [] ↔ t = [] ∨ t.getLast? = some x := by
  rcases List.eq_nil_or_concat t with rfl | ⟨front, c, rfl⟩
  · simp
  rw [List.concat_eq_append]
  by_cases hc : c = x
  · subst hc
    rw [List.splitOn_append_cons_self, List.splitOn_nil, List.getLast?_concat, List.getLast?_concat]
    simp
  · obtain ⟨pieces, last, hsplit⟩ := exists_splitOn_append x front
    rw [hsplit [c] (by simpa using Ne.symm hc)]
    simp [hc]

/-- Pieces joined in front of a text come out of it again. -/
theorem splitOn_intercalate_concat {pieces : List Text} (hpieces : ∀ piece ∈ pieces, x ∉ piece) (t : Text) :
    ([x].intercalate (pieces ++ [t])).splitOn x = pieces ++ t.splitOn x := by
  induction pieces with
  | nil => simp
  | cons piece pieces ih =>
    obtain ⟨hpiece, hpieces⟩ := List.forall_mem_cons.mp hpieces
    have hjoin : [x].intercalate (piece :: pieces ++ [t]) = piece ++ x :: [x].intercalate (pieces ++ [t]) := by
      cases pieces <;> simp [List.intercalate]
    rw [hjoin, List.splitOn_append_cons_self, List.splitOn_eq_singleton hpiece, ih hpieces]
    rfl

end PickIndent
