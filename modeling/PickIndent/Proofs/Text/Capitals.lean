import PickIndent.Proofs.Unicode.Apart
import PickIndent.Text.Letter

/-!
# Capitals — text with its ASCII letters in upper case

Most classes of characters do not tell the two cases of a letter apart (`Caseless`).  What is cut, trimmed or
counted by such a class is the same in a text and in its capitals.  A word in capitals is found in the capitals of
a text where it is found in the text when case is ignored (`dropFront?_capitals`), unless the text has one of the four
other variants of a letter (`Plain`).
-/

namespace PickIndent

/-- The text with its ASCII letters in upper case. -/
def capitals (t : Text) : Text := t.map Char.toUpper

/-- The characters outside ASCII that stand for a letter of ASCII when case is ignored. -/
def variants : List Char := ['\u0130', '\u0131', '\u017f', '\u212a']

/-! ### Letters in both cases -/

/-- A letter of ASCII belongs to the class in both cases or in none. -/
def Caseless (p : Char → Bool) : Prop := ∀ c, p c.toUpper = p c

theorem toUpper_cases (c : Char) :
    c.toUpper = c ∨ ∃ n < 26, c = Char.ofNat (97 + n) ∧ c.toUpper = Char.ofNat (65 + n) := by
  by_cases hlower : 97 ≤ c.toNat ∧ c.toNat ≤ 122
  · have hletters : ∀ n < 26, (Char.ofNat (97 + n)).toUpper = Char.ofNat (65 + n) := by decide
    obtain ⟨n, hn⟩ : ∃ n, c.toNat = 97 + n := ⟨c.toNat - 97, by omega⟩
    have hc : c = Char.ofNat (97 + n) := by rw [← hn, Char.ofNat_toNat]
    refine Or.inr ⟨n, by omega, hc, ?_⟩
    rw [hc]
    exact hletters n (by omega)
  · exact Or.inl (dif_neg hlower)

theorem caseless_of_letters {p : Char → Bool} (h : ∀ n < 26, p (Char.ofNat (65 + n)) = p (Char.ofNat (97 + n))) :
    Caseless p := by
  intro c
  rcases toUpper_cases c with hc | ⟨n, hn, hc, hupper⟩
  · rw [hc]
  · rw [hupper, hc]
    exact h n hn

/-- A character that is no letter is a capital only of itself. -/
theorem toUpper_eq_iff {a : Char} (ha : a.isAlpha = false) (c : Char) : c.toUpper = a ↔ c = a := by
  have hletters : ∀ n < 26, (Char.ofNat (65 + n)).isAlpha = true ∧ (Char.ofNat (97 + n)).isAlpha = true := by decide
  rcases toUpper_cases c with hc | ⟨n, hn, hc, hupper⟩
  · rw [hc]
  · have hsmall : Char.ofNat (97 + n) ≠ a := ne_of_class (hletters n hn).2 ha
    have hlarge : Char.ofNat (65 + n) ≠ a := ne_of_class (hletters n hn).1 ha
    rw [hupper, hc]
    exact iff_of_false hlarge hsmall

theorem caseless_beq {a : Char} (ha : a.isAlpha = false) : Caseless (· == a) := by
  intro c
  rw [Bool.eq_iff_iff, beq_iff_eq, beq_iff_eq, toUpper_eq_iff ha]

theorem Caseless.not {p : Char → Bool} (hp : Caseless p) : Caseless (!p ·) := fun c => congrArg (!·) (hp c)

theorem Caseless.or {p q : Char → Bool} (hp : Caseless p) (hq : Caseless q) : Caseless fun c => p c || q c :=
  fun c => by simp only [hp c, hq c]

theorem Caseless.comp {p : Char → Bool} (hp : Caseless p) : p ∘ Char.toUpper = p := funext hp

theorem caseless_isBlank : Caseless isBlank := caseless_of_letters (by decide)

/-! ### Parts of a text -/

section Parts

variable {p : Char → Bool} (hp : Caseless p) (t : Text)
include hp

theorem dropWhile_capitals : (capitals t).dropWhile p = capitals (t.dropWhile p) := by
  rw [capitals, List.dropWhile_map, hp.comp, capitals]

theorem takeWhile_capitals : (capitals t).takeWhile p = capitals (t.takeWhile p) := by
  rw [capitals, List.takeWhile_map, hp.comp, capitals]

theorem all_capitals : (capitals t).all p = t.all p := by
  rw [capitals, List.all_map, hp.comp]

theorem startsWithOrEnds_capitals : startsWithOrEnds p (capitals t) = startsWithOrEnds p t := by
  cases t with
  | nil => rfl
  | cons c t => exact hp c

end Parts

@[simp] theorem capitals_nil : capitals [] = [] := rfl

@[simp] theorem capitals_cons (c : Char) (t : Text) : capitals (c :: t) = c.toUpper :: capitals t := rfl

@[simp] theorem capitals_append (s t : Text) : capitals (s ++ t) = capitals s ++ capitals t := List.map_append

@[simp] theorem length_capitals (t : Text) : (capitals t).length = t.length := List.length_map _

@[simp] theorem capitals_eq_nil_iff {t : Text} : capitals t = [] ↔ t = [] := List.map_eq_nil_iff

theorem capitals_reverse (t : Text) : (capitals t).reverse = capitals t.reverse := List.map_reverse.symm

theorem capitals_spaces (n : Int) : capitals (spaces n) = spaces n := List.map_replicate

theorem isBlankText_capitals (t : Text) : isBlankText (capitals t) = isBlankText t := all_capitals caseless_isBlank t

theorem trimStart_capitals (t : Text) : trimStart (capitals t) = capitals (trimStart t) :=
  dropWhile_capitals caseless_isBlank t

theorem trimEnd_capitals (t : Text) : trimEnd (capitals t) = capitals (trimEnd t) := by
  rw [trimEnd, trimEnd, capitals_reverse, dropWhile_capitals caseless_isBlank, capitals_reverse]

theorem trim_capitals (t : Text) : trim (capitals t) = capitals (trim t) := by
  rw [trim, trim, trimStart_capitals, trimEnd_capitals]

theorem padTo_capitals (width : Int) (t : Text) : padTo width (capitals t) = capitals (padTo width t) := by
  rw [padTo, padTo, capitals_append, capitals_spaces, length_capitals]

theorem splitOn_capitals {a : Char} (ha : a.isAlpha = false) (t : Text) :
    (capitals t).splitOn a = (t.splitOn a).map capitals := by
  induction t with
  | nil => rfl
  | cons c t ih =>
    rw [capitals_cons, List.splitOn_cons_eq_if_modifyHead, List.splitOn_cons_eq_if_modifyHead, ih]
    simp only [beq_iff_eq, toUpper_eq_iff ha]
    obtain ⟨m, ms, hms⟩ := List.exists_cons_of_ne_nil (List.splitOn_ne_nil a t)
    rw [hms]
    split <;> rfl

theorem mem_capitals {a : Char} (ha : a.isAlpha = false) {t : Text} : a ∈ capitals t ↔ a ∈ t := by
  simp [capitals, toUpper_eq_iff ha]

theorem count_capitals {a : Char} (ha : a.isAlpha = false) (t : Text) : (capitals t).count a = t.count a := by
  rw [List.count_eq_countP, List.count_eq_countP, capitals, List.countP_map, (caseless_beq ha).comp]

theorem head?_capitals {a : Char} (ha : a.isAlpha = false) (t : Text) :
    (capitals t).head? = some a ↔ t.head? = some a := by
  cases t with
  | nil => rfl
  | cons c t => simp [toUpper_eq_iff ha]

theorem getLast?_capitals {a : Char} (ha : a.isAlpha = false) (t : Text) :
    (capitals t).getLast? = some a ↔ t.getLast? = some a := by
  rw [List.getLast?_eq_head?_reverse, List.getLast?_eq_head?_reverse, capitals_reverse, head?_capitals ha]

/-! ### Words -/

/-- No character of the text is one of the variants. -/
def NoVariants (t : Text) : Prop := ∀ c ∈ t, c ∉ variants

theorem NoVariants.mono {s t : Text} (ht : NoVariants t) (h : ∀ c ∈ s, c ∈ t) : NoVariants s :=
  fun c hc => ht c (h c hc)

theorem capital_eq_toUpper {c : Char} (h : c ∉ variants) : capital c = c.toUpper := by
  simp only [variants, List.mem_cons, List.not_mem_nil, or_false, not_or] at h
  obtain ⟨hdotted, hdotless, hlong, hkelvin⟩ := h
  rw [capital, if_neg hlong, if_neg hkelvin, if_neg (by simp [hdotted, hdotless])]

/-- **A word stands in front of the capitals where it stands in front of the text regardless of case.** -/
theorem dropFront?_capitals (w : Text) {t : Text} (ht : NoVariants t) :
    dropFront? (letter false) w (capitals t) = (dropFront? (letter true) w t).map capitals := by
  induction w generalizing t with
  | nil => rfl
  | cons a w ih =>
    cases t with
    | nil => rfl
    | cons c t =>
      have hc : letter true c = letter false c.toUpper := capital_eq_toUpper (ht c (by simp))
      rw [capitals_cons, dropFront?, dropFront?, hc, ih (ht.mono fun b hb => List.mem_cons_of_mem c hb)]
      split <;> rfl

theorem endsInWord_capitals {p : Char → Bool} (hp : Caseless p) (w : Text) {t : Text} (ht : NoVariants t) :
    endsInWord (letter false) p w (capitals t) = endsInWord (letter true) p w t := by
  rw [endsInWord, endsInWord, capitals_reverse, dropFront?_capitals _ (ht.mono fun c hc => List.mem_reverse.mp hc)]
  cases dropFront? (letter true) w.reverse t.reverse with
  | none => rfl
  | some before => exact startsWithOrEnds_capitals hp before

end PickIndent
