import RecordSeal.Text.Quoted

set_option autoImplicit false

/-! # Whole numbers in text

A whole number may stand between blanks, carry a sign, use digits of any script and hold single
underscores between digits. More than 4300 digits are refused. -/

namespace RecordSeal.Literal

/-- Why a text is no whole number. -/
inductive Fault where
  | malformed
  | tooLong (digits : Nat)
  deriving DecidableEq

/-- The largest number of digits that is read. -/
def maxDigits : Nat := 4300

/-- The wording for a number of `n` digits where only `limit` are allowed. -/
def tooLongMessage (limit n : Nat) : String :=
  s!"Exceeds the limit ({limit} digits) for integer string conversion: value has {n} digits; " ++
    "use sys.set_int_max_str_digits() to increase the limit"

/-- Ranges of the blanks that may surround a number. -/
def blanks : List (Nat × Nat) := [
  (0x9, 0xd), (0x20, 0x20), (0x85, 0x85), (0xa0, 0xa0), (0x1680, 0x1680), (0x2000, 0x200a),
  (0x2028, 0x2029), (0x202f, 0x202f), (0x205f, 0x205f), (0x3000, 0x3000)]

/-- Whether a character is a blank around numbers. -/
def isBlank (c : Char) : Bool := Text.inRanges blanks c.toNat

/-- Reads digits with single underscores between them: the digits' values, whether the last
character read was an underscore, and the rest; none if two underscores meet. -/
def digits : List Char → Bool → Option (List Nat × Bool × List Char)
  | [], under => some ([], under, [])
  | '_' :: cs, under => if under then none else digits cs true
  | c :: cs, under =>
    match Text.decimalValue? c with
    | some d => (digits cs false).map fun (ds, u, rest) => (d :: ds, u, rest)
    | none => some ([], under, c :: cs)

/-- Reads an unsigned number and the blanks after it. -/
def unsigned (cs : List Char) : Except Fault Nat :=
  match digits cs true with
  | none => .error .malformed
  | some (ds, under, rest) =>
    if under then .error .malformed
    else if maxDigits < ds.length then .error (.tooLong ds.length)
    else if rest.all isBlank then .ok (ds.foldl (fun n d => 10 * n + d) 0)
    else .error .malformed

/-- Reads a whole number. -/
def read (cs : List Char) : Except Fault Int :=
  match cs.dropWhile isBlank with
  | '-' :: rest => (unsigned rest).map fun n => -(n : Int)
  | '+' :: rest => (unsigned rest).map fun n => (n : Int)
  | rest => (unsigned rest).map fun n => (n : Int)

/-- The wording of a fault in a text; a long text is cut inside its quotes. -/
def Fault.message (s : String) : Fault → String
  | .malformed =>
    "invalid literal for int() with base 10: " ++ String.ofList ((Text.quoted s.toList).take 200)
  | .tooLong n => tooLongMessage maxDigits n

end RecordSeal.Literal
