import PickIndent.Text.Basic

/-!
# Letters regardless of case

Keywords are spelled in capitals. When case is ignored, a character counts as the capital it is a
variant of: an ASCII letter as its upper case, and of the other letters the long s as `S`, the
Kelvin sign as `K`, the dotless and the dotted i as `I`.
-/

namespace PickIndent

/-- The capital that a character stands for when case is ignored. -/
def capital (c : Char) : Char :=
  if c = '\u017f' then 'S'
  else if c = '\u212a' then 'K'
  else if c = '\u0130' ∨ c = '\u0131' then 'I'
  else c.toUpper

/-- The letter that a character stands for. -/
def letter (ignoreCase : Bool) (c : Char) : Char := if ignoreCase then capital c else c

end PickIndent
