import RecordSeal.Text.Point
import RecordSeal.Text.Printable

set_option autoImplicit false

/-! # Quoted text

Messages and document keys show a text inside quotes: single ones, or double ones if the text
holds a single quote and no double one. Backslash, the quote in use and unprintable characters
are escaped, so the quoted form determines the text. Lone surrogates are escaped as well, and byte
strings are quoted likewise behind `b`. -/

namespace RecordSeal.Text

/-- A lower-case hexadecimal digit. -/
def hexDigit (d : Nat) : Char := if d < 10 then Char.ofNat (48 + d) else Char.ofNat (87 + d)

/-- A number in `width` hexadecimal digits, most significant first. -/
def hex : Nat → Nat → List Char
  | 0, _ => []
  | width + 1, n => hex width (n / 16) ++ [hexDigit (n % 16)]

/-- Single quotes, unless only double ones need no escape. -/
def quoteFor (cs : List Char) : Char :=
  if '\'' ∈ cs ∧ '"' ∉ cs then '"' else '\''

/-- The escape of a code point by the shortest of the three forms. -/
def codeEscape (n : Nat) : List Char :=
  if n < 0x100 then '\\' :: 'x' :: hex 2 n
  else if n < 0x10000 then '\\' :: 'u' :: hex 4 n
  else '\\' :: 'U' :: hex 8 n

/-- A character inside quotes. -/
def quotedChar (quote : Char) (c : Char) : List Char :=
  if c = quote ∨ c = '\\' then ['\\', c]
  else if c = '\t' then ['\\', 't']
  else if c = '\n' then ['\\', 'n']
  else if c = '\r' then ['\\', 'r']
  else if isPrintable c then [c]
  else codeEscape c.toNat

/-- A text in quotes. -/
def quoted (cs : List Char) : List Char :=
  let q := quoteFor cs
  q :: cs.flatMap (quotedChar q) ++ [q]

/-- A code point inside quotes. -/
def quotedPoint (quote : Char) : Point → List Char
  | .char c => quotedChar quote c
  | .lone offset => codeEscape (Point.lone offset).code

/-- A text that may hold lone surrogates in quotes. -/
def quotedPoints (ps : List Point) : List Char :=
  let q := quoteFor (ps.filterMap Point.char?)
  q :: ps.flatMap (quotedPoint q) ++ [q]

/-- A byte inside quotes: printable ASCII as it is, others by number. -/
def quotedByte (quote : Char) (b : UInt8) : List Char :=
  let c := Char.ofNat b.toNat
  if b < 128 then quotedChar quote c else codeEscape b.toNat

/-- A byte string in quotes. -/
def quotedBytes (bs : List UInt8) : List Char :=
  let q := quoteFor (bs.map fun b => Char.ofNat b.toNat)
  'b' :: q :: bs.flatMap (quotedByte q) ++ [q]

/-- The quoted form of a string. -/
def quote (s : String) : String := String.ofList (quoted s.toList)

end RecordSeal.Text
