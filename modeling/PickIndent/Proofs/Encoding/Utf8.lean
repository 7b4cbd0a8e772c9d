import Mathlib.Algebra.Group.Nat.Defs
import PickIndent.Proofs.Encoding.Repertoire
import PickIndent.Proofs.Result

/-!
# UTF-8 — every character has one spelling

The bytes behind the first one hold the code point six bits at a time (`tails`).  Reading them is the inverse of
writing them (`readTails_tails`, `tails_of_readTails`), and the ranges that a first byte sets for the second one
leave exactly the spellings that are written.  So text that is written is read again (`decode_encode`), and
bytes that are read are those that the text is written with (`encode_of_decode`).
-/

namespace PickIndent.Utf8

open Encoding (toNat_ofNat toNat_valid)

/-! ### The bytes behind the first -/

/-- The last `n` bytes of the character with the code point `m`. -/
def tails : Nat → Nat → Bytes
  | 0, _ => []
  | n + 1, m => tail (m / 64 ^ n) :: tails n m

theorem length_tails (n m : Nat) : (tails n m).length = n := by
  induction n with
  | zero => rfl
  | succ n ih => rw [tails, List.length_cons, ih]

theorem toNat_tail (m : Nat) : (tail m).toNat = 0x80 + m % 64 := by
  rw [tail, UInt8.toNat_ofNat']
  omega

theorem div_pow_succ (m n : Nat) : m / 64 ^ (n + 1) = m / 64 ^ n / 64 := by
  rw [Nat.pow_succ, Nat.div_div_eq_div_mul]

/-- The first of the last `n` bytes of the character with the code point `m` lies in a range. -/
def StartsWithin (low high n m : Nat) : Prop :=
  ∀ k, n = k + 1 → low ≤ 0x80 + m / 64 ^ k % 64 ∧ 0x80 + m / 64 ^ k % 64 ≤ high

theorem startsWithin_zero (low high m : Nat) : StartsWithin low high 0 m :=
  fun k hk => absurd hk (Nat.succ_ne_zero k).symm

theorem startsWithin_succ {low high n m : Nat} : StartsWithin low high (n + 1) m ↔
    low ≤ 0x80 + m / 64 ^ n % 64 ∧ 0x80 + m / 64 ^ n % 64 ≤ high := by
  refine ⟨fun h => h n rfl, fun h k hk => ?_⟩
  obtain rfl := Nat.succ.inj hk
  exact h

theorem startsWithin_all (n m : Nat) : StartsWithin 0x80 0xBF n m := fun k _ => by omega

theorem readTails_tails {low high n bits m : Nat} (hbits : m / 64 ^ n = bits)
    (hstart : StartsWithin low high n m) (rest : Bytes) :
    readTails low high n bits (tails n m ++ rest) = .ok m := by
  induction n generalizing low high bits with
  | zero =>
    rw [Nat.pow_zero, Nat.div_one] at hbits
    rw [hbits]
    rfl
  | succ n ih =>
    rw [div_pow_succ] at hbits
    have hnext : m / 64 ^ n = bits * 64 + (0x80 + m / 64 ^ n % 64 - 0x80) := by omega
    rw [tails, List.cons_append, readTails, toNat_tail, if_pos (startsWithin_succ.mp hstart),
      ih hnext (startsWithin_all n m)]
    rfl

theorem tails_of_readTails {low high n bits m : Nat} {bs : Bytes} (hlow : 0x80 ≤ low) (hhigh : high ≤ 0xBF)
    (h : readTails low high n bits bs = .ok m) :
    bs = tails n m ++ bs.drop n ∧ m / 64 ^ n = bits ∧ StartsWithin low high n m := by
  induction n generalizing low high bits bs with
  | zero =>
    obtain rfl : bits = m := Except.ok.inj h
    exact ⟨rfl, by rw [Nat.pow_zero, Nat.div_one], startsWithin_zero low high bits⟩
  | succ n ih =>
    cases bs with
    | nil => simp [readTails] at h
    | cons b bs =>
      rw [readTails] at h
      split at h
      next hb =>
        obtain ⟨hbs, hbits, -⟩ := ih (Nat.le_refl _) (Nat.le_refl _) (mapError_eq_ok_iff.mp h)
        have hbyte : b = tail (m / 64 ^ n) := by
          rw [← UInt8.toNat_inj, toNat_tail]
          omega
        refine ⟨?_, ?_, startsWithin_succ.mpr (by omega)⟩
        · rw [tails, ← hbyte, List.drop_succ_cons, List.cons_append, ← hbs]
        · rw [div_pow_succ]
          omega
      next => simp at h

/-! ### The first byte -/

/-- The first bytes of characters of one, two, three and four bytes, with what they determine. -/
inductive FirstByte : Nat → Lead → Prop
  | one {q : Nat} (h : q < 0x80) : FirstByte q ⟨0, 0x80, 0xBF, q⟩
  | two {q : Nat} (hlow : 2 ≤ q) (h : q < 0x20) : FirstByte (0xC0 + q) ⟨1, 0x80, 0xBF, q⟩
  | three {q : Nat} (h : q < 0x10) :
      FirstByte (0xE0 + q) ⟨2, if q = 0 then 0xA0 else 0x80, if q = 0xD then 0x9F else 0xBF, q⟩
  | four {q : Nat} (h : q < 5) :
      FirstByte (0xF0 + q) ⟨3, if q = 0 then 0x90 else 0x80, if q = 4 then 0x8F else 0xBF, q⟩

theorem FirstByte.lead?_eq {b : Nat} {lead : Lead} (h : FirstByte b lead) : lead? b = some lead := by
  cases h with
  | one h => rw [lead?, if_pos h]
  | two hlow h =>
    rw [lead?, if_neg (by omega), if_neg (by omega), if_pos (by omega), Nat.add_sub_cancel_left]
  | three h =>
    revert h
    exact (by decide : ∀ q < 0x10, lead? (0xE0 + q) =
      some ⟨2, if q = 0 then 0xA0 else 0x80, if q = 0xD then 0x9F else 0xBF, q⟩) _
  | four h =>
    revert h
    exact (by decide : ∀ q < 5, lead? (0xF0 + q) =
      some ⟨3, if q = 0 then 0x90 else 0x80, if q = 4 then 0x8F else 0xBF, q⟩) _

theorem firstByte_of_lead? {b : Nat} {lead : Lead} (h : lead? b = some lead) : FirstByte b lead := by
  have of_eq : ∀ {b' : Nat} {lead' : Lead}, FirstByte b' lead' → b = b' → FirstByte b lead := by
    intro b' lead' hfirst heq
    rw [← heq] at hfirst
    obtain rfl : lead = lead' := Option.some.inj (h.symm.trans hfirst.lead?_eq)
    exact hfirst
  unfold lead? at h
  split at h
  next hb => exact of_eq (.one hb) rfl
  split at h
  · simp at h
  split at h
  · exact of_eq (.two (q := b - 0xC0) (by omega) (by omega)) (by omega)
  split at h
  · exact of_eq (.three (q := b - 0xE0) (by omega)) (by omega)
  split at h
  · exact of_eq (.four (q := b - 0xF0) (by omega)) (by omega)
  · simp at h

/-! ### One character -/

theorem encodeChar_eq (c : Char) : encodeChar c =
    if c.toNat < 0x80 then UInt8.ofNat c.toNat :: tails 0 c.toNat
    else if c.toNat < 0x800 then UInt8.ofNat (0xC0 + c.toNat / 64 ^ 1) :: tails 1 c.toNat
    else if c.toNat < 0x10000 then UInt8.ofNat (0xE0 + c.toNat / 64 ^ 2) :: tails 2 c.toNat
    else UInt8.ofNat (0xF0 + c.toNat / 64 ^ 3) :: tails 3 c.toNat := by
  simp [encodeChar, tails]

/-- The first byte `b` determines `lead`, and the code point `m` begins and goes on as `lead` has it. -/
structure Leads (b : UInt8) (lead : Lead) (m : Nat) : Prop where
  first : FirstByte b.toNat lead
  bits : m / 64 ^ lead.tails = lead.bits
  start : StartsWithin lead.low lead.high lead.tails m

/-- **Every character has a first byte that leads to it.** -/
theorem exists_leads (c : Char) : ∃ b lead, Leads b lead c.toNat := by
  have hvalid := toNat_valid c
  have first_ofNat : ∀ {n : Nat} {lead : Lead}, n < 0x100 → FirstByte n lead →
      FirstByte (UInt8.ofNat n).toNat lead := by
    intro n lead hn hfirst
    rwa [UInt8.toNat_ofNat', Nat.mod_eq_of_lt hn]
  generalize c.toNat = m at hvalid
  by_cases hone : m < 0x80
  · exact ⟨_, _, first_ofNat (by omega) (.one hone), by simp, startsWithin_zero _ _ m⟩
  by_cases htwo : m < 0x800
  · have hq : 2 ≤ m / 64 ^ 1 ∧ m / 64 ^ 1 < 0x20 := by omega
    exact ⟨_, _, first_ofNat (by omega) (.two hq.1 hq.2), rfl, startsWithin_all _ m⟩
  by_cases hthree : m < 0x10000
  · have hq : m / 64 ^ 2 < 0x10 := by omega
    refine ⟨_, _, first_ofNat (by omega) (.three hq), rfl, startsWithin_succ.mpr ?_⟩
    constructor <;> dsimp only <;> split <;> omega
  · have hq : m / 64 ^ 3 < 5 := by omega
    refine ⟨_, _, first_ofNat (by omega) (.four hq), rfl, startsWithin_succ.mpr ?_⟩
    constructor <;> dsimp only <;> split <;> omega

/-- **A first byte leads to nothing but the characters that are written with it.** -/
theorem Leads.encodeChar_ofNat {b : UInt8} {lead : Lead} {m : Nat} (h : Leads b lead m) :
    encodeChar (Char.ofNat m) = b :: tails lead.tails m := by
  obtain ⟨hfirst, hbits, hstart⟩ := h
  have hb : b = UInt8.ofNat b.toNat := UInt8.ofNat_toNat.symm
  rw [hb]
  generalize b.toNat = n at hfirst
  cases hfirst with
  | one hq =>
    rw [Nat.pow_zero, Nat.div_one] at hbits
    dsimp only at hbits
    rw [encodeChar_eq, toNat_ofNat (by omega), if_pos (by omega), hbits]
  | two hlow hq =>
    dsimp only at hbits
    rw [encodeChar_eq, toNat_ofNat (by omega), if_neg (by omega), if_pos (by omega), hbits]
  | three hq =>
    dsimp only at hbits
    -- the narrower ranges leave out the long forms and the surrogates
    have hrange : 0x800 ≤ m ∧ (m < 0xD800 ∨ 0xDFFF < m) := by
      obtain ⟨hlow, hhigh⟩ := startsWithin_succ.mp hstart
      dsimp only at hlow hhigh
      split at hlow <;> split at hhigh <;> omega
    rw [encodeChar_eq, toNat_ofNat (by omega), if_neg (by omega), if_neg (by omega), if_pos (by omega), hbits]
  | four hq =>
    dsimp only at hbits
    have hrange : 0x10000 ≤ m ∧ m < 0x110000 := by
      obtain ⟨hlow, hhigh⟩ := startsWithin_succ.mp hstart
      dsimp only at hlow hhigh
      split at hlow <;> split at hhigh <;> omega
    rw [encodeChar_eq, toNat_ofNat (by omega), if_neg (by omega), if_neg (by omega), if_neg (by omega), hbits]

theorem FirstByte.bounds {b : Nat} {lead : Lead} (h : FirstByte b lead) : 0x80 ≤ lead.low ∧ lead.high ≤ 0xBF := by
  cases h with
  | one _ => exact ⟨Nat.le_refl _, Nat.le_refl _⟩
  | two _ _ => exact ⟨Nat.le_refl _, Nat.le_refl _⟩
  | three _ => constructor <;> dsimp only <;> split <;> omega
  | four _ => constructor <;> dsimp only <;> split <;> omega

/-! ### Text -/

theorem encode_cons {b : UInt8} {lead : Lead} {m : Nat} (h : Leads b lead m) (t : Text) :
    encode (Char.ofNat m :: t) = b :: (tails lead.tails m ++ encode t) := by
  rw [encode, List.flatMap_cons, h.encodeChar_ofNat]
  rfl

theorem decodeFrom_encode (position : Nat) (t : Text) : decodeFrom position (encode t) = .ok t := by
  induction t generalizing position with
  | nil => simp [encode, decodeFrom]
  | cons c t ih =>
    obtain ⟨b, lead, hleads⟩ := exists_leads c
    have htext := encode_cons hleads t
    rw [Char.ofNat_toNat] at htext
    rw [htext, decodeFrom, hleads.first.lead?_eq]
    simp only [readTails_tails hleads.bits hleads.start,
      List.drop_left' (length_tails lead.tails c.toNat), ih, Char.ofNat_toNat]
    rfl

/-- **Text that is written is read again.** -/
theorem decode_encode (t : Text) : decode (encode t) = .ok t := decodeFrom_encode 0 t

theorem encode_of_decodeFrom {position : Nat} {bs : Bytes} {t : Text} (h : decodeFrom position bs = .ok t) :
    encode t = bs := by
  fun_induction decodeFrom position bs generalizing t with
  | case1 =>
    obtain rfl := Except.ok.inj h
    rfl
  | case2 => simp at h
  | case3 => simp at h
  | case4 position b bs lead hlead m hread ih =>
    have hfirst := firstByte_of_lead? hlead
    obtain ⟨hlow, hhigh⟩ := hfirst.bounds
    obtain ⟨hbs, hbits, hstart⟩ := tails_of_readTails hlow hhigh hread
    obtain ⟨later, hlater, rfl⟩ := map_eq_ok_iff.mp h
    rw [encode_cons ⟨hfirst, hbits, hstart⟩, ih hlater, ← hbs]

/-- **Bytes that are read are those that the text is written with.** -/
theorem encode_of_decode {bs : Bytes} {t : Text} (h : decode bs = .ok t) : encode t = bs :=
  encode_of_decodeFrom h

end PickIndent.Utf8
