import Mathlib.Data.List.DropRight
import PickIndent.Text.Basic

/-!
# Trimmed text — what trimming removes and what it keeps

A text is `Trimmed` when a blank stands at neither end.  `trim` makes every text so (`trimmed_trim`) and
leaves a trimmed text as it is (`Trimmed.trim_eq`); blanks put before or behind a text do not show
after trimming.
-/

namespace PickIndent

/-! ### Blank text -/

@[simp] theorem isBlankText_nil : isBlankText [] = true := rfl

@[simp] theorem isBlankText_append (s t : Text) :
    isBlankText (s ++ t) = (isBlankText s && isBlankText t) := by
  simp [isBlankText]

theorem isBlankText_iff {t : Text} : isBlankText t = true ↔ ∀ c ∈ t, isBlank c = true := by
  simp [isBlankText]

theorem isBlank_space : isBlank ' ' = true := by decide

@[simp] theorem isBlankText_spaces (n : Int) : isBlankText (spaces n) = true := by
  rw [isBlankText_iff]
  intro c hc
  rw [List.eq_of_mem_replicate hc]
  exact isBlank_space

theorem spaces_ne_nil_iff {n : Int} : spaces n ≠ [] ↔ 0 < n := by
  simp [spaces]

theorem spaces_append_spaces (m n : Int) : spaces m ++ spaces n = spaces (max m 0 + max n 0) := by
  rw [spaces, spaces, spaces, ← List.replicate_add]
  congr 1
  omega

/-- A run of spaces that is not empty begins with a blank. -/
theorem startsWithOrEnds_spaces_append {n : Int} (hn : 0 < n) (t : Text) :
    startsWithOrEnds isBlank (spaces n ++ t) = true := by
  obtain ⟨k, hk⟩ : ∃ k, n.toNat = k + 1 := ⟨n.toNat - 1, by omega⟩
  rw [spaces, hk, List.replicate_succ]
  exact isBlank_space

/-! ### Trimming at one end -/

theorem trimStart_eq_nil_iff {t : Text} : trimStart t = [] ↔ isBlankText t = true := by
  rw [isBlankText_iff, trimStart, List.dropWhile_eq_nil_iff]

theorem trimEnd_eq_nil_iff {t : Text} : trimEnd t = [] ↔ isBlankText t = true := by
  rw [isBlankText_iff]
  exact List.rdropWhile_eq_nil_iff

theorem trimEnd_isPrefix (t : Text) : trimEnd t <+: t := List.rdropWhile_prefix isBlank (l := t)

theorem trimStart_isSuffix (t : Text) : trimStart t <:+ t := List.dropWhile_suffix isBlank

@[simp] theorem trimEnd_trimEnd (t : Text) : trimEnd (trimEnd t) = trimEnd t :=
  List.rdropWhile_idempotent isBlank t

theorem trimEnd_last {t : Text} {c : Char} (h : (trimEnd t).getLast? = some c) : isBlank c = false := by
  rw [trimEnd, List.getLast?_reverse] at h
  have hnot := List.head?_dropWhile_not isBlank t.reverse
  rw [h] at hnot
  simpa using hnot

/-- Only blanks are cut off at the end. -/
theorem exists_trimEnd_append (t : Text) : ∃ s, isBlankText s = true ∧ trimEnd t ++ s = t := by
  refine ⟨t.rtakeWhile isBlank, ?_, List.rdropWhile_append_rtakeWhile⟩
  rw [isBlankText_iff]
  exact fun c hc => List.mem_rtakeWhile_imp hc

theorem trimStart_append_of_blank {s : Text} (h : isBlankText s = true) (t : Text) :
    trimStart (s ++ t) = trimStart t :=
  List.dropWhile_append_of_pos (isBlankText_iff.mp h)

theorem trimStart_append {t : Text} (h : isBlankText t = false) (s : Text) :
    trimStart (t ++ s) = trimStart t ++ s := by
  have hne : trimStart t ≠ [] := fun h0 => by simp [trimStart_eq_nil_iff.mp h0] at h
  unfold trimStart at hne ⊢
  rw [List.dropWhile_append, if_neg (by simpa using hne)]

theorem trimEnd_append_of_blank {s : Text} (h : isBlankText s = true) (t : Text) :
    trimEnd (t ++ s) = trimEnd t := by
  unfold trimEnd
  rw [List.reverse_append, List.dropWhile_append_of_pos]
  exact fun c hc => isBlankText_iff.mp h c (List.mem_reverse.mp hc)

theorem trimEnd_append {s : Text} (h : isBlankText s = false) (t : Text) :
    trimEnd (t ++ s) = t ++ trimEnd s := by
  have hrev : isBlankText s.reverse = false := by rw [← h]; exact List.all_reverse
  have hstart := trimStart_append hrev t.reverse
  unfold trimStart at hstart
  unfold trimEnd
  rw [List.reverse_append, hstart, List.reverse_append, List.reverse_reverse]

/-! ### Trimming at both ends -/

theorem trim_append_of_blank_left {s : Text} (h : isBlankText s = true) (t : Text) :
    trim (s ++ t) = trim t := by
  rw [trim, trim, trimStart_append_of_blank h]

theorem trim_eq_nil_iff {t : Text} : trim t = [] ↔ isBlankText t = true := by
  rw [trim, trimEnd_eq_nil_iff]
  constructor
  · intro h
    have hsplit := List.takeWhile_append_dropWhile (p := isBlank) (l := t)
    rw [← hsplit, isBlankText_append, show t.dropWhile isBlank = trimStart t from rfl, h, Bool.and_true,
      isBlankText_iff]
    exact fun c hc => List.mem_takeWhile_imp hc
  · intro h
    rw [trimStart_eq_nil_iff.mpr h, isBlankText_nil]

theorem trim_append_of_blank_right {s : Text} (h : isBlankText s = true) (t : Text) :
    trim (t ++ s) = trim t := by
  by_cases ht : isBlankText t = true
  · rw [trim_eq_nil_iff.mpr ht, trim_eq_nil_iff, isBlankText_append, ht, h, Bool.and_true]
  · rw [trim, trimStart_append (by simpa using ht), trimEnd_append_of_blank h, trim]

@[simp] theorem trim_trimEnd (t : Text) : trim (trimEnd t) = trim t := by
  obtain ⟨s, hs, ht⟩ := exists_trimEnd_append t
  conv_rhs => rw [← ht]
  rw [trim_append_of_blank_right hs]

/-- Trimmed at the end alone, a text keeps the blanks at its beginning. -/
theorem exists_append_trim (t : Text) : ∃ s, isBlankText s = true ∧ trimEnd t = s ++ trim t := by
  by_cases ht : isBlankText t = true
  · exact ⟨[], rfl, by rw [trimEnd_eq_nil_iff.mpr ht, trim_eq_nil_iff.mpr ht]; rfl⟩
  · have hstart : isBlankText (trimStart t) = false := by
      rw [Bool.eq_false_iff, ne_eq, ← trimEnd_eq_nil_iff]
      exact fun h => ht (trim_eq_nil_iff.mp h)
    refine ⟨t.takeWhile isBlank, isBlankText_iff.mpr fun c hc => List.mem_takeWhile_imp hc, ?_⟩
    rw [trim, ← trimEnd_append hstart, trimStart, List.takeWhile_append_dropWhile]

/-- Only blanks are cut off. -/
theorem exists_append_trim_append (t : Text) :
    ∃ s u, isBlankText s = true ∧ isBlankText u = true ∧ t = s ++ trim t ++ u := by
  obtain ⟨s, hs, htrim⟩ := exists_append_trim t
  obtain ⟨u, hu, ht⟩ := exists_trimEnd_append t
  exact ⟨s, u, hs, hu, by rw [← htrim, ht]⟩

theorem mem_of_mem_trim {t : Text} {c : Char} (h : c ∈ trim t) : c ∈ t :=
  (trimStart_isSuffix t).subset ((trimEnd_isPrefix _).subset h)

/-! ### Trimmed text -/

/-- A blank stands neither at the beginning nor at the end. -/
structure Trimmed (t : Text) : Prop where
  head : ∀ c, t.head? = some c → isBlank c = false
  last : ∀ c, t.getLast? = some c → isBlank c = false

theorem trimmed_trim (t : Text) : Trimmed (trim t) where
  head c hc := by
    obtain ⟨s, hs⟩ := trimEnd_isPrefix (trimStart t)
    have hhead : (trimStart t).head? = some c := by
      rw [← hs, List.head?_append, show trimEnd (trimStart t) = trim t from rfl, hc]
      rfl
    have hnot := List.head?_dropWhile_not isBlank t
    rw [show t.dropWhile isBlank = trimStart t from rfl, hhead] at hnot
    simpa using hnot
  last c hc := trimEnd_last hc

theorem Trimmed.trimStart_eq {t : Text} (h : Trimmed t) : trimStart t = t := by
  cases t with
  | nil => rfl
  | cons c t => exact List.dropWhile_cons_of_neg (by simp [h.head c rfl])

theorem Trimmed.trimEnd_eq {t : Text} (h : Trimmed t) : trimEnd t = t := by
  refine List.rdropWhile_eq_self_iff.mpr fun hne => ?_
  simp [h.last _ (List.getLast?_eq_some_getLast hne)]

theorem Trimmed.trim_eq {t : Text} (h : Trimmed t) : trim t = t := by
  rw [trim, h.trimStart_eq, h.trimEnd_eq]

@[simp] theorem trim_trim (t : Text) : trim (trim t) = trim t := (trimmed_trim t).trim_eq

theorem Trimmed.eq_nil_of_startsWithOrEnds {t : Text} (h : Trimmed t) (hb : startsWithOrEnds isBlank t = true) :
    t = [] := by
  cases t with
  | nil => rfl
  | cons c t =>
    rw [startsWithOrEnds, h.head c rfl] at hb
    exact Bool.noConfusion hb

theorem Trimmed.eq_nil_of_append_blank {s t : Text} (h : Trimmed (s ++ t)) (hb : isBlankText t = true) :
    t = [] := by
  by_contra hne
  have hlast := h.last (t.getLast hne)
    (by rw [List.getLast?_append_of_ne_nil _ hne, List.getLast?_eq_some_getLast])
  rw [isBlankText_iff.mp hb _ (List.getLast_mem hne)] at hlast
  exact Bool.noConfusion hlast

/-- A text that begins like a trimmed text and ends like one is trimmed. -/
theorem Trimmed.splice {s m u t : Text} (hs : Trimmed (s ++ u)) (ht : Trimmed t) (hs0 : s ≠ [])
    (ht0 : t ≠ []) : Trimmed (s ++ m ++ t) where
  head c hc := by
    rw [List.append_assoc, List.head?_append_of_ne_nil _ hs0] at hc
    exact hs.head c (by rw [List.head?_append_of_ne_nil _ hs0, hc])
  last c hc := by
    rw [List.getLast?_append_of_ne_nil _ ht0] at hc
    exact ht.last c hc

end PickIndent
