import PickIndent.Encoding.Utf8
import PickIndent.Encoding.Utf16

/-!
# Reading and writing text as bytes

Encodings with one byte for each character reach only the characters that their bytes can number.
Text that was read in an encoding can be written in it again.
-/

namespace PickIndent

/-- The text of ASCII bytes that have `position` others before them. -/
def decodeAsciiFrom (position : Nat) : Bytes → Except DecodeError Text
  | [] => .ok []
  | b :: bs =>
    if b.toNat < 128 then (decodeAsciiFrom (position + 1) bs).map (Char.ofNat b.toNat :: ·)
    else .error ⟨"ascii", position, b, 0, .notAscii⟩

/-- One byte for each character, if all of them are below `limit`. -/
def encodeBelow? (limit : Nat) (t : Text) : Option Bytes :=
  if t.all fun c => c.toNat < limit then some (t.map fun c => UInt8.ofNat c.toNat) else none

namespace Encoding

def decode : Encoding → Bytes → Except DecodeError Text
  | .ascii, bs => decodeAsciiFrom 0 bs
  | .latin1, bs => .ok (bs.map fun b => Char.ofNat b.toNat)
  | .utf8, bs => Utf8.decode bs
  | .utf8Marked, bs => Utf8.decodeMarked bs
  | .utf16Low, bs => Utf16.decode bs

/-- The bytes of a text, if the encoding has all its characters. -/
def encode? : Encoding → Text → Option Bytes
  | .ascii, t => encodeBelow? 128 t
  | .latin1, t => encodeBelow? 256 t
  | .utf8, t => some (Utf8.encode t)
  | .utf8Marked, t => some (Utf8.encodeMarked t)
  | .utf16Low, t => some (Utf16.encode t)

end Encoding

end PickIndent
