import PickIndent.Encoding.Basic

/-!
# UTF-16 with the low byte first

A code point below 65536 is one unit of two bytes. A greater one is a pair of units from two ranges
that are kept free for this, the high half first.
-/

namespace PickIndent.Utf16

def isHigh (unit : Nat) : Bool := 0xD800 ≤ unit && unit < 0xDC00

def isLow (unit : Nat) : Bool := 0xDC00 ≤ unit && unit < 0xE000

/-- The unit of two bytes, the low one first. -/
def unit (low high : UInt8) : Nat := high.toNat * 256 + low.toNat

/-- The text of bytes that have `position` others before them. -/
def decodeFrom (position : Nat) : Bytes → Except DecodeError Text
  | [] => .ok []
  | [b] => .error ⟨"utf-16-le", position, b, 0, .oddByte⟩
  | a :: b :: rest =>
    if isLow (unit a b) then .error ⟨"utf-16-le", position, a, 1, .strayLow⟩
    else if isHigh (unit a b) then
      match rest with
      | c :: d :: rest =>
        if isLow (unit c d) then
          let code := 0x10000 + (unit a b - 0xD800) * 1024 + (unit c d - 0xDC00)
          (decodeFrom (position + 4) rest).map (Char.ofNat code :: ·)
        else .error ⟨"utf-16-le", position, a, 1, .strayHigh⟩
      | rest => .error ⟨"utf-16-le", position, a, 1 + rest.length, .endOfData⟩
    else (decodeFrom (position + 2) rest).map (Char.ofNat (unit a b) :: ·)

def decode (bs : Bytes) : Except DecodeError Text := decodeFrom 0 bs

/-- The two bytes of a unit. -/
def encodeUnit (n : Nat) : Bytes := [UInt8.ofNat (n % 256), UInt8.ofNat (n / 256)]

def encodeChar (c : Char) : Bytes :=
  let n := c.toNat
  if n < 0x10000 then encodeUnit n
  else
    encodeUnit (0xD800 + (n - 0x10000) / 1024) ++ encodeUnit (0xDC00 + (n - 0x10000) % 1024)

def encode (t : Text) : Bytes := t.flatMap encodeChar

end PickIndent.Utf16
