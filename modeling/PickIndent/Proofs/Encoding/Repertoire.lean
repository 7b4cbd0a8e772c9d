import PickIndent.Encoding.Codec
import PickIndent.Proofs.Result

/-!
# Repertoire — the characters that an encoding has

An encoding writes a text exactly if it has all its characters (`encode?_isSome_iff`), and what it reads has no
others (`has_of_decode`).  Every encoding has the space.
-/

namespace PickIndent.Encoding

/-- Whether a character can be written. -/
def has : Encoding → Char → Bool
  | .ascii, c => c.toNat < 128
  | .latin1, c => c.toNat < 256
  | _, _ => true

theorem has_space (e : Encoding) : e.has ' ' = true := by
  cases e <;> decide

theorem encodeBelow?_isSome_iff {limit : Nat} {t : Text} :
    (encodeBelow? limit t).isSome = true ↔ ∀ c ∈ t, c.toNat < limit := by
  simp [encodeBelow?]

theorem encode?_isSome_iff {e : Encoding} {t : Text} :
    (e.encode? t).isSome = true ↔ ∀ c ∈ t, e.has c = true := by
  cases e with
  | ascii => simpa [encode?, has] using encodeBelow?_isSome_iff
  | latin1 => simpa [encode?, has] using encodeBelow?_isSome_iff
  | _ => simp [encode?, has]

/-! ### Reading -/

theorem toNat_ofNat {n : Nat} (h : n < 0xD800 ∨ 0xDFFF < n ∧ n < 0x110000) : (Char.ofNat n).toNat = n := by
  rw [Char.ofNat, dif_pos h]
  rfl

theorem toNat_valid (c : Char) : c.toNat < 0xD800 ∨ 0xDFFF < c.toNat ∧ c.toNat < 0x110000 := c.valid

/-- A number that is no code point stands for the character U+0000. -/
theorem toNat_ofNat_le (n : Nat) : (Char.ofNat n).toNat ≤ n := by
  by_cases hvalid : n.isValidChar
  · rw [Char.ofNat, dif_pos hvalid]
    exact Nat.le_refl n
  · rw [Char.ofNat, dif_neg hvalid]
    exact Nat.zero_le n

theorem lt_of_decodeAsciiFrom {position : Nat} {bytes : Bytes} {t : Text}
    (h : decodeAsciiFrom position bytes = .ok t) : ∀ c ∈ t, c.toNat < 128 := by
  induction bytes generalizing position t with
  | nil =>
    obtain rfl : [] = t := by simpa [decodeAsciiFrom] using h
    simp
  | cons b bytes ih =>
    rw [decodeAsciiFrom] at h
    split at h
    next hb =>
      obtain ⟨later, hlater, rfl⟩ := map_eq_ok_iff.mp h
      rw [List.forall_mem_cons]
      exact ⟨Nat.lt_of_le_of_lt (toNat_ofNat_le _) hb, ih hlater⟩
    next => simp at h

theorem has_of_decode {e : Encoding} {bytes : Bytes} {t : Text} (h : e.decode bytes = .ok t) :
    ∀ c ∈ t, e.has c = true := by
  cases e with
  | ascii => simpa [has] using lt_of_decodeAsciiFrom h
  | latin1 =>
    obtain rfl : bytes.map (fun b => Char.ofNat b.toNat) = t := by simpa [decode] using h
    intro c hc
    obtain ⟨b, -, rfl⟩ := List.mem_map.mp hc
    simpa [has] using Nat.lt_of_le_of_lt (toNat_ofNat_le _) b.toNat_lt
  | _ => simp [has]

/-- **What was read can be written again**, also with more spaces in it and with characters missing. -/
theorem exists_encode {e : Encoding} {bytes : Bytes} {t u : Text} (h : e.decode bytes = .ok t)
    (hu : ∀ c ∈ u, c = ' ' ∨ c ∈ t) : ∃ out, e.encode? u = some out := by
  rw [← Option.isSome_iff_exists, encode?_isSome_iff]
  intro c hc
  rcases hu c hc with rfl | hc
  · exact e.has_space
  · exact has_of_decode h c hc

end PickIndent.Encoding
