import Mathlib.Data.List.TakeWhile
import PickIndent.Text.Basic

/-!
# Beginnings — what a run of characters stops at

A run of characters of one class in front of a text is all that is taken, exactly if what is left does not begin with
the class (`takeWhile_append_of_stop`, `stop_of_takeWhile_append`).
-/

namespace PickIndent

variable {p q : Char → Bool}

theorem startsWithOrEnds_iff {t : Text} : startsWithOrEnds p t = true ↔ ∀ c ∈ t.head?, p c = true := by
  cases t <;> simp [startsWithOrEnds]

theorem startsWithOrEnds_mono {t : Text} (hpq : ∀ c, p c = true → q c = true) (h : startsWithOrEnds p t = true) :
    startsWithOrEnds q t = true :=
  startsWithOrEnds_iff.mpr fun c hc => hpq c (startsWithOrEnds_iff.mp h c hc)

theorem startsWithOrEnds_of_isPrefix {s t : Text} (hst : s <+: t) (h : startsWithOrEnds p t = true) :
    startsWithOrEnds p s = true := by
  obtain ⟨u, rfl⟩ := hst
  cases s with
  | nil => rfl
  | cons c s => exact h

/-- What is left of a text does not begin with the class that was dropped. -/
theorem startsWithOrEnds_dropWhile (p : Char → Bool) (t : Text) :
    startsWithOrEnds (!p ·) (t.dropWhile p) = true := by
  refine startsWithOrEnds_iff.mpr fun c hc => ?_
  have hhead := List.head?_dropWhile_not p t
  rw [hc] at hhead
  simpa using hhead

/-- Characters of one class in front of a text that begins with none of them. -/
theorem takeWhile_append_of_stop {u r : Text} (hu : ∀ x ∈ u, p x = true)
    (hr : startsWithOrEnds (!p ·) r = true) : (u ++ r).takeWhile p = u ∧ (u ++ r).dropWhile p = r := by
  rw [List.takeWhile_append_of_pos hu, List.dropWhile_append_of_pos hu]
  cases r with
  | nil => simp
  | cons c r =>
    have hc : ¬ p c = true := by simpa [startsWithOrEnds] using hr
    simp [List.takeWhile_cons_of_neg hc, List.dropWhile_cons_of_neg hc]

/-- What is taken belongs to the class, and what is left does not begin with it. -/
theorem stop_of_takeWhile_append {t rest : Text} (htake : (t ++ rest).takeWhile p = t)
    (hdrop : (t ++ rest).dropWhile p = rest) : (∀ a ∈ t, p a = true) ∧ startsWithOrEnds (!p ·) rest = true := by
  refine ⟨fun a ha => List.mem_takeWhile_imp (htake ▸ ha), ?_⟩
  have hstop := startsWithOrEnds_dropWhile p (t ++ rest)
  rwa [hdrop] at hstop

end PickIndent
