/-!
# Tables of code points

A property of characters is given as a list of closed ranges of code points, ascending and apart.
-/

namespace PickIndent

/-- Whether `n` lies in one of the ranges. The ranges are ascending, so the search stops at the
first one that begins beyond `n`. -/
def inRanges : List (Nat × Nat) → Nat → Bool
  | [], _ => false
  | (lo, hi) :: rs, n => if n < lo then false else n ≤ hi || inRanges rs n

end PickIndent
