import PickIndent.Label

/-!
# Classes of characters that lie apart

A blank is no digit of any script, and a digit begins no name.  The tables behind these classes are long, so
the blanks are gone through one by one (`forall_blank`) and so are the zeros of the scripts.
-/

namespace PickIndent

/-- A character of a class is none that lies outside. -/
theorem ne_of_class {p : Char → Bool} {c d : Char} (hc : p c = true) (hd : p d = false) : c ≠ d := by
  rintro rfl
  rw [hc] at hd
  exact Bool.noConfusion hd

/-! ### Blanks -/

theorem exists_range_of_inRanges {rs : List (Nat × Nat)} {n : Nat} (h : inRanges rs n = true) :
    ∃ r ∈ rs, r.1 ≤ n ∧ n ≤ r.2 := by
  induction rs with
  | nil => simp [inRanges] at h
  | cons r rs ih =>
    obtain ⟨lo, hi⟩ := r
    rw [inRanges] at h
    split at h
    · simp at h
    · rename_i hlo
      rcases Bool.or_eq_true_iff.mp h with hhi | hrs
      · exact ⟨(lo, hi), by simp, by simpa using hlo, by simpa using hhi⟩
      · obtain ⟨r, hr, hn⟩ := ih hrs
        exact ⟨r, List.mem_cons_of_mem _ hr, hn⟩

/-- A property of all blanks, checked code point by code point. -/
theorem forall_blank {P : Nat → Bool}
    (h : ∀ r ∈ blankRanges, ∀ k ∈ List.range (r.2 + 1 - r.1), P (r.1 + k) = true) {c : Char}
    (hc : isBlank c = true) : P c.toNat = true := by
  obtain ⟨r, hr, hlo, hhi⟩ := exists_range_of_inRanges hc
  have hk := h r hr (c.toNat - r.1) (List.mem_range.mpr (by omega))
  rwa [show r.1 + (c.toNat - r.1) = c.toNat by omega] at hk

/-- A class without the blanks, checked blank by blank. -/
theorem isBlank_of_class {p : Char → Bool}
    (h : ∀ r ∈ blankRanges, ∀ k ∈ List.range (r.2 + 1 - r.1), p (Char.ofNat (r.1 + k)) = false) {c : Char}
    (hc : p c = true) : isBlank c = false := by
  rw [← Bool.not_eq_true]
  intro hblank
  have hnot := forall_blank (P := fun n => !p (Char.ofNat n)) (fun r hr k hk => by simp [h r hr k hk]) hblank
  simp [hc] at hnot

theorem isDecimalDigit_of_isBlank {c : Char} (hc : isBlank c = true) : isDecimalDigit c = false := by
  have h := forall_blank (P := fun n => (digitZeros.find? fun z => z ≤ n && n ≤ z + 9).isNone)
    (by decide +kernel) hc
  simpa [isDecimalDigit, decimalDigit?] using h

/-! ### Digits -/

/-- Between the digits of ASCII and those of the next script there is none. -/
theorem toNat_of_isDecimalDigit {c : Char} (hc : isDecimalDigit c = true) :
    0x30 ≤ c.toNat ∧ c.toNat ≤ 0x39 ∨ 0x660 ≤ c.toNat := by
  have hzeros : ∀ z ∈ digitZeros, z = 0x30 ∨ 0x660 ≤ z := by decide +kernel
  obtain ⟨z, hz, hlo, hhi⟩ : ∃ z ∈ digitZeros, z ≤ c.toNat ∧ c.toNat ≤ z + 9 := by
    simpa [isDecimalDigit, decimalDigit?] using hc
  have := hzeros z hz
  omega

theorem isWordStart_of_isDecimalDigit {c : Char} (hc : isDecimalDigit c = true) :
    isWordStart c = false := by
  have hn := toNat_of_isDecimalDigit hc
  have hunder : c ≠ '_' := by rintro rfl; simp at hn
  rw [isWordStart, Bool.or_eq_false_iff, beq_eq_false_iff_ne]
  refine ⟨?_, hunder⟩
  show (decide (65 ≤ c.toNat ∧ c.toNat ≤ 90) || (decide (97 ≤ c.toNat) && decide (c.toNat ≤ 122))) = false
  rw [Bool.or_eq_false_iff, ← Bool.decide_and, decide_eq_false_iff_not, decide_eq_false_iff_not]
  omega

theorem isUpper_of_isDecimalDigit {c : Char} (hc : isDecimalDigit c = true) : c.isUpper = false := by
  have hn := toNat_of_isDecimalDigit hc
  show decide (65 ≤ c.toNat ∧ c.toNat ≤ 90) = false
  rw [decide_eq_false_iff_not]
  omega

theorem toUpper_of_isDecimalDigit {c : Char} (hc : isDecimalDigit c = true) : c.toUpper = c := by
  have hn := toNat_of_isDecimalDigit hc
  refine dif_neg fun h => ?_
  have hlower : 97 ≤ c.toNat ∧ c.toNat ≤ 122 := h
  omega

end PickIndent
