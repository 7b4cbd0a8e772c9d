import PickIndent.Text.Basic
import PickIndent.Unicode.DecimalDigit

/-!
# Integers as they are typed

An integer is a run of decimal digits of any script, with a sign if desired and with single
underscores between digits if desired. Blanks around it do not count, but the four information
separators are no blanks here. A number of more than 4300 digits is not read.
-/

namespace PickIndent

def isNumberBlank (c : Char) : Bool := isBlank c && !(0x1C ≤ c.toNat && c.toNat ≤ 0x1F)

def maxDigits : Nat := 4300

/-- The value of digits in groups that underscores separate. -/
def naturalOf? (t : Text) : Option Nat :=
  let groups := t.splitOn '_'
  if groups.contains [] || maxDigits < groups.flatten.length then none
  else (groups.flatten.mapM decimalDigit?).map fun ds => ds.foldl (fun n d => 10 * n + d) 0

def integerOf? (t : Text) : Option Int :=
  match ((t.dropWhile isNumberBlank).reverse.dropWhile isNumberBlank).reverse with
  | '-' :: digits => (naturalOf? digits).map fun n => -(n : Int)
  | '+' :: digits => (naturalOf? digits).map Int.ofNat
  | digits => (naturalOf? digits).map Int.ofNat

end PickIndent
