import Mathlib.Data.List.Infix
import PickIndent.Proofs.Encoding.Utf16
import PickIndent.Proofs.Encoding.Utf8

/-!
# Round trips — reading what was written and writing what was read

Text that an encoding can write is read again as it was (`decode_of_encode?`).  Bytes that are read are those
that the text is written with, but for the byte order mark: it may be missing in what is read and never is in
what is written (`encode?_of_decode`).
-/

namespace PickIndent.Encoding

/-! ### One byte for each character -/

theorem decodeAsciiFrom_map {t : Text} (h : ∀ c ∈ t, c.toNat < 128) (position : Nat) :
    decodeAsciiFrom position (t.map fun c => UInt8.ofNat c.toNat) = .ok t := by
  induction t generalizing position with
  | nil => rfl
  | cons c t ih =>
    have hc : c.toNat < 128 := h c (by simp)
    have hbyte : (UInt8.ofNat c.toNat).toNat = c.toNat := by rw [UInt8.toNat_ofNat']; omega
    rw [List.map_cons, decodeAsciiFrom, hbyte, if_pos hc, ih (fun a ha => h a (List.mem_cons_of_mem c ha)),
      Char.ofNat_toNat]
    rfl

theorem map_of_decodeAsciiFrom {position : Nat} {bs : Bytes} {t : Text}
    (h : decodeAsciiFrom position bs = .ok t) : (t.map fun c => UInt8.ofNat c.toNat) = bs := by
  induction bs generalizing position t with
  | nil =>
    obtain rfl : [] = t := Except.ok.inj h
    rfl
  | cons b bs ih =>
    rw [decodeAsciiFrom] at h
    split at h
    next hb =>
      obtain ⟨later, hlater, rfl⟩ := map_eq_ok_iff.mp h
      rw [List.map_cons, ih hlater, toNat_ofNat (by omega), UInt8.ofNat_toNat]
    next => simp at h

theorem encodeBelow?_eq_some_iff {limit : Nat} {t : Text} {bs : Bytes} :
    encodeBelow? limit t = some bs ↔ (∀ c ∈ t, c.toNat < limit) ∧ (t.map fun c => UInt8.ofNat c.toNat) = bs := by
  simp [encodeBelow?]

theorem map_ofNat_map {t : Text} (h : ∀ c ∈ t, c.toNat < 256) :
    ((t.map fun c => UInt8.ofNat c.toNat).map fun b => Char.ofNat b.toNat) = t := by
  rw [List.map_map]
  refine (List.map_congr_left fun c hc => ?_).trans (List.map_id t)
  have hbyte : (UInt8.ofNat c.toNat).toNat = c.toNat := by
    rw [UInt8.toNat_ofNat']
    exact Nat.mod_eq_of_lt (h c hc)
  simp only [Function.comp_apply, hbyte, Char.ofNat_toNat, id_eq]

theorem map_toNat_map (bs : Bytes) :
    ((bs.map fun b => Char.ofNat b.toNat).map fun c => UInt8.ofNat c.toNat) = bs := by
  rw [List.map_map]
  refine (List.map_congr_left fun b _ => ?_).trans (List.map_id bs)
  have hb : b.toNat < 256 := b.toNat_lt
  rw [Function.comp_apply, toNat_ofNat (by omega), UInt8.ofNat_toNat, id_eq]

/-! ### The byte order mark -/

/-- The bytes behind the mark that the encoding sets before a text. Bytes that are no more than the beginning
of the mark become the mark. -/
def marked : Encoding → Bytes → Bytes
  | .utf8Marked, bs =>
    if Utf8.byteOrderMark <+: bs then bs
    else if bs <+: Utf8.byteOrderMark then Utf8.byteOrderMark
    else Utf8.byteOrderMark ++ bs
  | _, bs => bs

theorem marked_eq_self_iff {e : Encoding} {bs : Bytes} :
    e.marked bs = bs ↔ (e = .utf8Marked → Utf8.byteOrderMark <+: bs) := by
  cases e with
  | utf8Marked =>
    constructor
    · intro h _
      rw [← h, marked]
      split
      next hmark => exact hmark
      next => split <;> simp
    · intro h
      rw [marked, if_pos (h rfl)]
  | _ => simp [marked]

theorem marked_append_mark (bs : Bytes) :
    marked .utf8Marked (Utf8.byteOrderMark ++ bs) = Utf8.byteOrderMark ++ bs := by
  rw [marked, if_pos (List.prefix_append _ _)]

/-! ### All encodings -/

/-- **Text that is written is read again.** -/
theorem decode_of_encode? {e : Encoding} {t : Text} {bs : Bytes} (h : e.encode? t = some bs) :
    e.decode bs = .ok t := by
  cases e with
  | ascii =>
    obtain ⟨hall, rfl⟩ := encodeBelow?_eq_some_iff.mp h
    exact decodeAsciiFrom_map hall 0
  | latin1 =>
    obtain ⟨hall, rfl⟩ := encodeBelow?_eq_some_iff.mp h
    exact congrArg Except.ok (map_ofNat_map hall)
  | utf8 =>
    obtain rfl := Option.some.inj h
    exact Utf8.decode_encode t
  | utf8Marked =>
    obtain rfl := Option.some.inj h
    exact Utf8.decode_encode t
  | utf16Low =>
    obtain rfl := Option.some.inj h
    exact Utf16.decode_encode t

/-- **Bytes that are read are those that the text is written with**, behind the mark. -/
theorem encode?_of_decode {e : Encoding} {bs : Bytes} {t : Text} (h : e.decode bs = .ok t) :
    e.encode? t = some (e.marked bs) := by
  cases e with
  | ascii => exact encodeBelow?_eq_some_iff.mpr ⟨lt_of_decodeAsciiFrom h, map_of_decodeAsciiFrom h⟩
  | latin1 =>
    obtain rfl := Except.ok.inj h
    refine encodeBelow?_eq_some_iff.mpr ⟨?_, map_toNat_map bs⟩
    rintro c hc
    obtain ⟨b, -, rfl⟩ := List.mem_map.mp hc
    exact (toNat_ofNat_le _).trans_lt b.toNat_lt
  | utf8 => exact congrArg some (Utf8.encode_of_decode h)
  | utf8Marked =>
    refine congrArg some ?_
    rw [decode, Utf8.decodeMarked] at h
    split at h
    next rest hrest =>
      obtain rfl := List.isPrefixOf?_eq_some_iff_append_eq.mp hrest
      rw [marked_append_mark, Utf8.encodeMarked, Utf8.encode_of_decode h]
    next hnone =>
      have hmark : ¬ Utf8.byteOrderMark <+: bs := by
        rintro ⟨rest, hrest⟩
        rw [List.isPrefixOf?_eq_some_iff_append_eq.mpr hrest] at hnone
        cases hnone
      rw [marked, if_neg hmark]
      split at h
      next hshort =>
        obtain rfl : [] = t := Except.ok.inj h
        rw [if_pos (List.isPrefixOf_iff_prefix.mp hshort)]
        rfl
      next hlong =>
        rw [if_neg (hlong ∘ List.isPrefixOf_iff_prefix.mpr), Utf8.encodeMarked, Utf8.encode_of_decode h]
  | utf16Low => exact congrArg some (Utf16.encode_of_decode h)

end PickIndent.Encoding
