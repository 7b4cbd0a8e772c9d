import PickIndent.Encoding.Utf16
import PickIndent.Proofs.Encoding.Repertoire
import PickIndent.Proofs.Result

/-!
# UTF-16 — one unit or two halves

A unit is its two bytes (`unit_bytes`, `encodeUnit_unit`).  No character has its code point in the ranges of the
halves, so a unit of a single character is never taken for a half, and what is written as a pair is read as a
pair.  Text that is written is read again (`decode_encode`), and bytes that are read are those that the text is
written with (`encode_of_decode`).
-/

namespace PickIndent.Utf16

open Encoding (toNat_ofNat toNat_valid)

/-! ### Units -/

theorem unit_bytes {n : Nat} (h : n < 0x10000) : unit (UInt8.ofNat (n % 256)) (UInt8.ofNat (n / 256)) = n := by
  rw [unit, UInt8.toNat_ofNat', UInt8.toNat_ofNat']
  omega

theorem encodeUnit_unit (a b : UInt8) : encodeUnit (unit a b) = [a, b] := by
  have ha := a.toNat_lt
  have hlow : unit a b % 256 = a.toNat := by rw [unit]; omega
  have hhigh : unit a b / 256 = b.toNat := by rw [unit]; omega
  rw [encodeUnit, hlow, hhigh, UInt8.ofNat_toNat, UInt8.ofNat_toNat]

theorem unit_lt (a b : UInt8) : unit a b < 0x10000 := by
  have ha := a.toNat_lt
  have hb := b.toNat_lt
  rw [unit]
  omega

theorem isHigh_iff {n : Nat} : isHigh n = true ↔ 0xD800 ≤ n ∧ n < 0xDC00 := by simp [isHigh]

theorem isLow_iff {n : Nat} : isLow n = true ↔ 0xDC00 ≤ n ∧ n < 0xE000 := by simp [isLow]

/-! ### One character -/

theorem encode_cons_unit {n : Nat} (h : n < 0xD800 ∨ 0xDFFF < n ∧ n < 0x10000) (t : Text) :
    encode (Char.ofNat n :: t) = encodeUnit n ++ encode t := by
  rw [encode, List.flatMap_cons, encodeChar, toNat_ofNat (by omega), if_pos (by omega)]
  rfl

/-- The code point of a pair. -/
def pair (high low : Nat) : Nat := 0x10000 + (high - 0xD800) * 1024 + (low - 0xDC00)

theorem encode_cons_pair {high low : Nat} (hhigh : isHigh high = true) (hlow : isLow low = true) (t : Text) :
    encode (Char.ofNat (pair high low) :: t) = encodeUnit high ++ (encodeUnit low ++ encode t) := by
  rw [isHigh_iff] at hhigh
  rw [isLow_iff] at hlow
  have hfirst : 0xD800 + (pair high low - 0x10000) / 1024 = high := by unfold pair; omega
  have hsecond : 0xDC00 + (pair high low - 0x10000) % 1024 = low := by unfold pair; omega
  have hpair : 0x10000 ≤ pair high low ∧ pair high low < 0x110000 := by unfold pair; omega
  rw [encode, List.flatMap_cons, encodeChar, toNat_ofNat (by omega), if_neg (by omega), hfirst, hsecond,
    List.append_assoc]
  rfl

theorem exists_pair {n : Nat} (h : 0x10000 ≤ n) (hn : n < 0x110000) :
    ∃ high low, isHigh high = true ∧ isLow low = true ∧ n = pair high low := by
  refine ⟨0xD800 + (n - 0x10000) / 1024, 0xDC00 + (n - 0x10000) % 1024, isHigh_iff.mpr (by omega),
    isLow_iff.mpr (by omega), ?_⟩
  unfold pair
  omega

/-! ### Text -/

theorem decodeFrom_unit {n : Nat} (h : n < 0xD800 ∨ 0xDFFF < n ∧ n < 0x10000) (position : Nat) (bs : Bytes) :
    decodeFrom position (encodeUnit n ++ bs) = (decodeFrom (position + 2) bs).map (Char.ofNat n :: ·) := by
  have hlow : ¬isLow n = true := by rw [isLow_iff]; omega
  have hhigh : ¬isHigh n = true := by rw [isHigh_iff]; omega
  rw [encodeUnit, List.cons_append, List.cons_append, decodeFrom.eq_def]
  simp only [unit_bytes (show n < 0x10000 by omega), if_neg hlow, if_neg hhigh]
  rfl

theorem decodeFrom_pair {high low : Nat} (hhigh : isHigh high = true) (hlow : isLow low = true) (position : Nat)
    (bs : Bytes) : decodeFrom position (encodeUnit high ++ (encodeUnit low ++ bs)) =
      (decodeFrom (position + 4) bs).map (Char.ofNat (pair high low) :: ·) := by
  have hrange := isHigh_iff.mp hhigh
  have hrange' := isLow_iff.mp hlow
  have hnot : ¬isLow high = true := by rw [isLow_iff]; omega
  simp only [encodeUnit, List.cons_append, List.nil_append, decodeFrom]
  rw [unit_bytes (by omega), unit_bytes (by omega), if_neg hnot, if_pos hhigh, if_pos hlow]
  rfl

theorem decodeFrom_encode (position : Nat) (t : Text) : decodeFrom position (encode t) = .ok t := by
  induction t generalizing position with
  | nil => rfl
  | cons c t ih =>
    have hvalid := toNat_valid c
    have hc : c = Char.ofNat c.toNat := (Char.ofNat_toNat c).symm
    by_cases hsingle : c.toNat < 0x10000
    · rw [hc, encode_cons_unit (by omega), decodeFrom_unit (by omega), ih]
      rfl
    · obtain ⟨high, low, hhigh, hlow, hpair⟩ := exists_pair (n := c.toNat) (by omega) (by omega)
      rw [hc, hpair, encode_cons_pair hhigh hlow, decodeFrom_pair hhigh hlow, ih]
      rfl

/-- **Text that is written is read again.** -/
theorem decode_encode (t : Text) : decode (encode t) = .ok t := decodeFrom_encode 0 t

theorem encode_of_decodeFrom {position : Nat} {bs : Bytes} {t : Text} (h : decodeFrom position bs = .ok t) :
    encode t = bs := by
  fun_induction decodeFrom position bs generalizing t with
  | case1 =>
    obtain rfl := Except.ok.inj h
    rfl
  | case2 => simp at h
  | case3 => simp at h
  | case4 position a b hnot hhigh c d rest hlow code =>
    rename_i ih
    obtain ⟨later, hlater, rfl⟩ := map_eq_ok_iff.mp h
    have hpair := encode_cons_pair hhigh hlow later
    rw [encodeUnit_unit, encodeUnit_unit, ih hlater] at hpair
    exact hpair
  | case5 => simp at h
  | case6 => simp at h
  | case7 position a b rest hlow hhigh ih =>
    obtain ⟨later, hlater, rfl⟩ := map_eq_ok_iff.mp h
    have hunit := unit_lt a b
    rw [isLow_iff] at hlow
    rw [isHigh_iff] at hhigh
    rw [encode_cons_unit (by omega), encodeUnit_unit, ih hlater]
    rfl

/-- **Bytes that are read are those that the text is written with.** -/
theorem encode_of_decode {bs : Bytes} {t : Text} (h : decode bs = .ok t) : encode t = bs :=
  encode_of_decodeFrom h

end PickIndent.Utf16
