import PickIndent.Unicode.Ranges

/-!
# Blanks

White space as the layout understands it: the characters with the Unicode property White_Space and
the four information separators U+001C to U+001F. A zero-width space or a byte order mark is no
blank.
-/

namespace PickIndent

/-- The blank code points, as closed ranges. -/
def blankRanges : List (Nat × Nat) :=
  [(0x09, 0x0D), (0x1C, 0x20), (0x85, 0x85), (0xA0, 0xA0), (0x1680, 0x1680), (0x2000, 0x200A),
   (0x2028, 0x2029), (0x202F, 0x202F), (0x205F, 0x205F), (0x3000, 0x3000)]

def isBlank (c : Char) : Bool := inRanges blankRanges c.toNat

end PickIndent
