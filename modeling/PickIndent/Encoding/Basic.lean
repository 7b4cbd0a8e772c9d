import PickIndent.Text.Basic

/-!
# Encodings and what can go wrong in reading

A file is a list of bytes. An encoding has a name of its own and is known by others, in which case does
not matter and any run of other characters than letters, digits and points counts as one underscore. In
the other names a point may stand for an underscore as well.
-/

namespace PickIndent

abbrev Bytes := List UInt8

/-- Whether a name or a path has a character U+0000, which the system takes for the end. -/
def hasNull (s : String) : Bool := s.toList.contains '\x00'

inductive Encoding where
  | ascii
  | latin1
  | utf8
  /-- UTF-8 behind a byte order mark. -/
  | utf8Marked
  /-- UTF-16 with the low byte first. -/
  | utf16Low
  deriving DecidableEq, Repr

/-! ### Names -/

namespace Encoding

def all : List Encoding := [.ascii, .latin1, .utf8, .utf8Marked, .utf16Low]

/-- The name of the encoding itself. -/
def name : Encoding → String
  | .ascii => "ascii"
  | .latin1 => "latin_1"
  | .utf8 => "utf_8"
  | .utf8Marked => "utf_8_sig"
  | .utf16Low => "utf_16_le"

/-- Other names of the encoding. -/
def aliases : Encoding → List String
  | .ascii =>
    ["646", "ansi_x3.4_1968", "ansi_x3_4_1968", "ansi_x3.4_1986", "cp367", "csascii", "ibm367", "iso646_us",
     "iso_646.irv_1991", "iso_ir_6", "us", "us_ascii"]
  | .latin1 =>
    ["8859", "cp819", "csisolatin1", "ibm819", "iso8859", "iso8859_1", "iso_8859_1", "iso_8859_1_1987",
     "iso_ir_100", "l1", "latin", "latin1"]
  | .utf8 => ["u8", "utf", "utf8", "utf8_ucs2", "utf8_ucs4", "cp65001"]
  | .utf8Marked => []
  | .utf16Low => ["unicodelittleunmarked", "utf_16le"]

/-- The words of a name in lower case, joined by underscores. -/
def plainName (name : String) : String :=
  let spaced := name.toList.map fun c => if c.isAlphanum || c == '.' then c.toLower else ' '
  String.ofList (['_'].intercalate ((spaced.splitOn ' ').filter (· != [])))

/-- A name with underscores for its points. -/
def withoutPoints (name : String) : String :=
  String.ofList (name.toList.map fun c => if c = '.' then '_' else c)

/-- Whether a plain name stands for the encoding. -/
def answersTo (e : Encoding) (plain : String) : Bool :=
  plain == e.name || e.aliases.contains plain || e.aliases.contains (withoutPoints plain)

/-- The encoding that a name stands for. -/
def ofName? (name : String) : Option Encoding :=
  if hasNull name then none else all.find? (·.answersTo (plainName name))

/-- Every name of an encoding stands for it and for no other. -/
theorem ofName?_of_mem : ∀ e ∈ all, ∀ name ∈ e.name :: e.aliases, ofName? name = some e := by decide +kernel

example : ofName? "ISO 8859.1" = some .latin1 := by decide +kernel

end Encoding

/-! ### Faults -/

/-- Why bytes stand for no character. -/
inductive DecodeFault where
  | notAscii
  /-- The byte begins no character. -/
  | wrongStart
  /-- A character has begun that the next byte cannot continue. -/
  | wrongContinuation
  /-- The bytes end in the middle of a character. -/
  | endOfData
  /-- A single byte is left where two are needed. -/
  | oddByte
  /-- A second half of a pair without the first. -/
  | strayLow
  /-- A first half of a pair without the second. -/
  | strayHigh
  deriving DecidableEq, Repr

def DecodeFault.message : DecodeFault → String
  | .notAscii => "ordinal not in range(128)"
  | .wrongStart => "invalid start byte"
  | .wrongContinuation => "invalid continuation byte"
  | .endOfData => "unexpected end of data"
  | .oddByte => "truncated data"
  | .strayLow => "illegal encoding"
  | .strayHigh => "illegal UTF-16 surrogate"

/-- Bytes that stand for no character. -/
structure DecodeError where
  /-- The name of the encoding. -/
  codec : String
  /-- How many bytes come before the faulty ones. -/
  position : Nat
  /-- The first faulty byte. -/
  byte : UInt8
  /-- How many bytes are faulty after the first. -/
  more : Nat
  fault : DecodeFault
  deriving DecidableEq, Repr

/-- A number below 256 as two hexadecimal digits. -/
def hexByte (n : Nat) : String :=
  String.ofList [Nat.digitChar (n / 16), Nat.digitChar (n % 16)]

def DecodeError.message (e : DecodeError) : String :=
  let place :=
    if e.more = 0 then "byte 0x" ++ hexByte e.byte.toNat ++ " in position " ++ toString e.position
    else "bytes in position " ++ toString e.position ++ "-" ++ toString (e.position + e.more)
  "'" ++ e.codec ++ "' codec can't decode " ++ place ++ ": " ++ e.fault.message

end PickIndent
