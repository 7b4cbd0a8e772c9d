import PickIndent.Encoding.Basic

/-!
# UTF-8

The first byte of a character says how many bytes continue it and, by its remaining bits, how its code
point begins. Each further byte adds six bits. For some first bytes the second one has a narrower
range, which excludes needlessly long forms, surrogates and numbers that are no code points.

A fault covers the bytes of a character that were good so far.
-/

namespace PickIndent.Utf8

/-- What the first byte of a character determines. -/
structure Lead where
  /-- How many bytes continue the character. -/
  tails : Nat
  /-- The range of the second byte. -/
  low : Nat
  high : Nat
  /-- The bits of the code point that the first byte holds. -/
  bits : Nat
  deriving DecidableEq, Repr

def lead? (b : Nat) : Option Lead :=
  if b < 0x80 then some ⟨0, 0x80, 0xBF, b⟩
  else if b < 0xC2 then none
  else if b < 0xE0 then some ⟨1, 0x80, 0xBF, b - 0xC0⟩
  else if b < 0xF0 then
    some ⟨2, if b = 0xE0 then 0xA0 else 0x80, if b = 0xED then 0x9F else 0xBF, b - 0xE0⟩
  else if b < 0xF5 then
    some ⟨3, if b = 0xF0 then 0x90 else 0x80, if b = 0xF4 then 0x8F else 0xBF, b - 0xF0⟩
  else none

/-- The code point that begins with `bits` and goes on with `n` bytes, the first of them between `low`
and `high`; or the number of good bytes and the fault. -/
def readTails (low high : Nat) : Nat → Nat → Bytes → Except (Nat × DecodeFault) Nat
  | 0, bits, _ => .ok bits
  | _ + 1, _, [] => .error (0, .endOfData)
  | n + 1, bits, b :: bs =>
    if low ≤ b.toNat ∧ b.toNat ≤ high then
      (readTails 0x80 0xBF n (bits * 64 + (b.toNat - 0x80)) bs).mapError fun e => (e.1 + 1, e.2)
    else .error (0, .wrongContinuation)

/-- The text of bytes that have `position` others before them. -/
def decodeFrom (position : Nat) : Bytes → Except DecodeError Text
  | [] => .ok []
  | b :: bs =>
    match lead? b.toNat with
    | none => .error ⟨"utf-8", position, b, 0, .wrongStart⟩
    | some lead =>
      match readTails lead.low lead.high lead.tails lead.bits bs with
      | .error (more, fault) => .error ⟨"utf-8", position, b, more, fault⟩
      | .ok code =>
        (decodeFrom (position + 1 + lead.tails) (bs.drop lead.tails)).map (Char.ofNat code :: ·)
termination_by bs => bs.length
decreasing_by simp only [List.length_drop, List.length_cons]; omega

def decode (bs : Bytes) : Except DecodeError Text := decodeFrom 0 bs

/-- A byte that continues a character, with the lowest six bits of `n`. -/
def tail (n : Nat) : UInt8 := UInt8.ofNat (0x80 + n % 64)

def encodeChar (c : Char) : Bytes :=
  let n := c.toNat
  if n < 0x80 then [UInt8.ofNat n]
  else if n < 0x800 then [UInt8.ofNat (0xC0 + n / 64), tail n]
  else if n < 0x10000 then [UInt8.ofNat (0xE0 + n / 4096), tail (n / 64), tail n]
  else [UInt8.ofNat (0xF0 + n / 262144), tail (n / 4096), tail (n / 64), tail n]

def encode (t : Text) : Bytes := t.flatMap encodeChar

/-! ### The byte order mark -/

def byteOrderMark : Bytes := [0xEF, 0xBB, 0xBF]

/-- Text behind a byte order mark. The mark may be missing; bytes that are no more than its beginning
are an empty text. -/
def decodeMarked (bs : Bytes) : Except DecodeError Text :=
  match byteOrderMark.isPrefixOf? bs with
  | some rest => decode rest
  | none => if bs.isPrefixOf byteOrderMark then .ok [] else decode bs

def encodeMarked (t : Text) : Bytes := byteOrderMark ++ encode t

end PickIndent.Utf8
