import RecordSeal.Number.Decimal
import RecordSeal.Number.Literal

set_option autoImplicit false

/-! # Numbers spelled in text

Where a number or a truth value is wanted, a text that spells one will do. Blanks around it do not
count. Underscores are left out where each of them stands alone between other characters, and so is
a fraction of zeros where a whole number is wanted. -/

namespace RecordSeal.Spelled

/-- A text without the blanks around it. -/
def trimmed (cs : List Char) : List Char :=
  ((cs.dropWhile Literal.isBlank).reverse.dropWhile Literal.isBlank).reverse

/-- A text without its underscores, if it has some and each of them stands alone between other
characters. -/
def withoutUnderscores? (cs : List Char) : Option (List Char) :=
  let parts := cs.splitOn '_'
  if 1 < parts.length && parts.all (!·.isEmpty) then some parts.flatten else none

/-- A text without its fraction, if it has one of zeros alone. -/
def withoutFraction? (cs : List Char) : Option (List Char) :=
  match cs.dropWhile (· ≠ '.') with
  | [] => none
  | _ :: fraction => if fraction.all (· = '0') then some (cs.takeWhile (· ≠ '.')) else none

/-- The sign at the beginning of a text, and the rest. -/
def takeSign : List Char → Bool × List Char
  | '-' :: rest => (true, rest)
  | '+' :: rest => (false, rest)
  | cs => (false, cs)

/-! ## Whole numbers -/

/-- The number of a sign and digits. -/
def integer? (cs : List Char) : Option Int :=
  let (negative, ds) := takeSign cs
  if ds.isEmpty || !ds.all Decimal.isDigit then none
  else
    let n : Int := Decimal.toNat ds
    some (if negative then -n else n)

/-- The whole number that a text spells. -/
def whole? (cs : List Char) : Option Int :=
  let cs := trimmed cs
  (integer? cs).or (((withoutFraction? cs).or (withoutUnderscores? cs)).bind integer?)

/-! ## Floating-point numbers -/

/-- The exponent that is all of a text; an empty one is zero. -/
def exponent? : List Char → Option Int
  | [] => some 0
  | e :: cs => if e = 'e' ∨ e = 'E' then integer? cs else none

/-- The number of a sign, digits with perhaps a point among them, and perhaps an exponent. -/
def decimal? (negative : Bool) (cs : List Char) : Option Binary64 :=
  let whole := cs.takeWhile Decimal.isDigit
  let rest := cs.dropWhile Decimal.isDigit
  let (fraction, rest) := match rest with
    | '.' :: more => (more.takeWhile Decimal.isDigit, more.dropWhile Decimal.isDigit)
    | _ => ([], rest)
  if whole.isEmpty && fraction.isEmpty then none
  else (exponent? rest).map fun e =>
    Binary64.ofDecimal negative (Decimal.toNat (whole ++ fraction)) (e - fraction.length)

/-- The number of a sign and digits or a word. -/
def unblanked? (cs : List Char) : Option Binary64 :=
  let (negative, unsigned) := takeSign cs
  let word := String.ofList (unsigned.map Char.toLower)
  if word = "inf" ∨ word = "infinity" then some (Binary64.infinity negative)
  else if word = "nan" then some .undefined
  else decimal? negative unsigned

/-- The floating-point number that a text spells. -/
def float? (cs : List Char) : Option Binary64 :=
  (unblanked? (trimmed cs)).or ((withoutUnderscores? cs).bind unblanked?)

/-! ## Truth values -/

/-- The words for truth values, in lower case. -/
def truthWords : List (String × Bool) := [
  ("0", false), ("f", false), ("n", false), ("no", false), ("off", false), ("false", false),
  ("1", true), ("t", true), ("y", true), ("on", true), ("yes", true), ("true", true)]

/-- The truth value that a text spells, in any case. -/
def truth? (cs : List Char) : Option Bool :=
  (truthWords.find? fun e => e.1 = String.ofList (cs.map Char.toLower)).map (·.2)

end RecordSeal.Spelled
