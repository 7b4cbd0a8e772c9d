import PickIndent.Text.Basic
import PickIndent.Unicode.Printable

/-!
# Quoted text

Text is shown between single quotes, or between double quotes if it holds single quotes and no double
ones. Inside, the quote and the backslash have a backslash before them; a tab, a line feed and a
carriage return are written by letter; and any other character that does not print by the number of
its code point.
-/

namespace PickIndent

/-- The hexadecimal digits of `n`, at least `width` of them. -/
def hexDigits (width n : Nat) : Text :=
  let digits := Nat.toDigits 16 n
  List.replicate (width - digits.length) '0' ++ digits

/-- A character that does not print, by its number in as many digits as its size calls for. -/
def numberEscape (c : Char) : Text :=
  let n := c.toNat
  if n < 0x100 then '\\' :: 'x' :: hexDigits 2 n
  else if n < 0x10000 then '\\' :: 'u' :: hexDigits 4 n
  else '\\' :: 'U' :: hexDigits 8 n

def escapeChar (quote c : Char) : Text :=
  if c = quote ∨ c = '\\' then ['\\', c]
  else if c = '\t' then ['\\', 't']
  else if c = '\n' then ['\\', 'n']
  else if c = '\r' then ['\\', 'r']
  else if isPrintable c then [c]
  else numberEscape c

/-- The quote that needs fewer escapes, as far as the presence of quotes tells. -/
def quoteFor (t : Text) : Char := if t.contains '\x27' && !t.contains '\x22' then '\x22' else '\x27'

def quoted (s : String) : String :=
  let q := quoteFor s.toList
  String.ofList (q :: s.toList.flatMap (escapeChar q) ++ [q])

end PickIndent
