import RecordSeal.Json.Limits
import RecordSeal.Value

set_option autoImplicit false

/-! # Writing JSON

A value is written in ASCII, its fields in their order. The separators are a record, `Separators`:
spaced for what is stored and encrypted, compact for what is signed. Byte strings and foreign
objects have no JSON form, nor have such names, and there are limits; `obstacle?` finds the first
thing in the way. -/

namespace RecordSeal.Json

open Text (Point hex)

/-! ## Texts -/

/-- The escape of a UTF-16 unit. -/
def unitEscape (n : Nat) : List Char := '\\' :: 'u' :: hex 4 n

/-- A character inside a JSON text: short escapes, printable ASCII, or its UTF-16 units. -/
def textChar (c : Char) : List Char :=
  if c = '"' then ['\\', '"']
  else if c = '\\' then ['\\', '\\']
  else if c = '\n' then ['\\', 'n']
  else if c = '\r' then ['\\', 'r']
  else if c = '\t' then ['\\', 't']
  else if c = '\x0c' then ['\\', 'f']
  else if c = '\x08' then ['\\', 'b']
  else if ' ' ≤ c ∧ c ≤ '~' then [c]
  else if c.toNat < 0x10000 then unitEscape c.toNat
  else
    -- Beyond one unit a character is a pair of surrogates.
    let n := c.toNat - 0x10000
    unitEscape (0xD800 + n / 0x400) ++ unitEscape (0xDC00 + n % 0x400)

/-- A code point inside a JSON text. -/
def textPoint : Point → List Char
  | .char c => textChar c
  | .lone offset => unitEscape (Point.lone offset).code

/-- A text in its quotes. -/
def printText (ps : List Point) : List Char := '"' :: ps.flatMap textPoint ++ ['"']

/-! ## Numbers -/

/-- The layout of numbers in JSON, with the names of what is not a number. -/
def numberLayout : Binary64.Layout :=
  { Binary64.valueLayout with undefinedText := "NaN", infiniteText := "Infinity" }

/-! ## Names -/

/-- The text that a name is written as, or put in order by if it is not written. -/
def nameText : Name → List Point
  | .null => Text.points "null".toList
  | .bool true => Text.points "true".toList
  | .bool false => Text.points "false".toList
  | .int n => Text.points (Decimal.ofInt n)
  | .float x => Text.points (x.textWith numberLayout)
  | .text s => Text.points s.toList
  | .brokenText ps => ps
  | .bytes bs => Text.points (bs.map fun b => Char.ofNat b.toNat)
  | .other _ label => Text.points label.toList

/-- A name in its quotes. -/
def printName (n : Name) : List Char := printText (nameText n)

/-! ## Values -/

/-- What stands between items and between a name and its value. -/
structure Separators where
  item : List Char
  name : List Char

/-- A blank after each comma and colon: the form that is stored and encrypted. -/
def spaced : Separators := ⟨[',', ' '], [':', ' ']⟩

/-- No blanks: the form that is signed. -/
def compact : Separators := ⟨[','], [':']⟩

/-- A literal or a number; none of the other kinds. -/
def printAtom : Value → List Char
  | .null => "null".toList
  | .bool true => "true".toList
  | .bool false => "false".toList
  | .int n => Decimal.ofInt n
  | .float x => x.textWith numberLayout
  | .text s => printText (Text.points s.toList)
  | .brokenText ps => printText ps
  | _ => []

mutual

/-- A value on one line. -/
def print (sep : Separators) : Value → List Char
  | .list items => '[' :: printItems sep items ++ [']']
  | .object fields => '{' :: printFields sep fields ++ ['}']
  | v => printAtom v

/-- Items between separators. -/
def printItems (sep : Separators) : List Value → List Char
  | [] => []
  | [v] => print sep v
  | v :: rest => print sep v ++ sep.item ++ printItems sep rest

/-- Fields between separators. -/
def printFields (sep : Separators) : List (Name × Value) → List Char
  | [] => []
  | [(k, v)] => printName k ++ sep.name ++ print sep v
  | (k, v) :: rest => printName k ++ sep.name ++ print sep v ++ sep.item ++ printFields sep rest

end

/-! ## Indented form -/

/-- A new line indented by a number of steps of two blanks. -/
def newLine (depth : Nat) : List Char := '\n' :: List.replicate (2 * depth) ' '

mutual

/-- A value over several lines, its items one step further in; empty containers stay closed. -/
def printIndented (depth : Nat) : Value → List Char
  | .list [] => ['[', ']']
  | .object [] => ['{', '}']
  | .list items =>
    '[' :: newLine (depth + 1) ++ indentedItems (depth + 1) items ++ newLine depth ++ [']']
  | .object fields =>
    '{' :: newLine (depth + 1) ++ indentedFields (depth + 1) fields ++ newLine depth ++ ['}']
  | v => printAtom v

/-- Items one to a line. -/
def indentedItems (depth : Nat) : List Value → List Char
  | [] => []
  | [v] => printIndented depth v
  | v :: rest => printIndented depth v ++ ',' :: newLine depth ++ indentedItems depth rest

/-- Fields one to a line. -/
def indentedFields (depth : Nat) : List (Name × Value) → List Char
  | [] => []
  | [(k, v)] => printName k ++ spaced.name ++ printIndented depth v
  | (k, v) :: rest =>
    printName k ++ spaced.name ++ printIndented depth v ++ ',' :: newLine depth ++
      indentedFields depth rest

end

/-! ## What cannot be written -/

/-- What has no JSON form, by its kind. -/
inductive Formless where
  | value (kind : String)
  | name (kind : String)
  deriving DecidableEq

/-- The wording for what has no JSON form. -/
def Formless.message : Formless → String
  | .value kind => s!"Object of type {kind} is not JSON serializable"
  | .name kind => s!"keys must be str, int, float, bool or None, not {kind}"

/-- Why a value cannot be written. -/
inductive Obstacle where
  /-- A value or a name of a kind that has no JSON form. -/
  | kind (part : Formless)
  /-- A whole number with more digits than allowed. -/
  | tooLong (limit : Nat)
  /-- Too many lists and objects inside each other. -/
  | tooDeep
  deriving DecidableEq

/-- The wording of an obstacle. -/
def Obstacle.message : Obstacle → String
  | .kind part => part.message
  | .tooLong limit =>
    s!"Exceeds the limit ({limit} digits) for integer string conversion; " ++
      "use sys.set_int_max_str_digits() to increase the limit"
  | .tooDeep => "maximum recursion depth exceeded while encoding a JSON object"

/-- The obstacle of a whole number. -/
def numberObstacle? (digits : Nat) (n : Int) : Option Obstacle :=
  if digits < (Decimal.ofNat n.natAbs).length then some (.tooLong digits) else none

/-- The obstacle of a name. -/
def nameObstacle? (digits : Nat) : Name → Option Obstacle
  | .int n => numberObstacle? digits n
  | .bytes bs => some (.kind (.name (Name.bytes bs).kindName))
  | .other kind label => some (.kind (.name (Name.other kind label).kindName))
  | _ => none

mutual

/-- The first obstacle, in order, to writing a value. -/
def obstacle? (digits : Nat) : Nat → Value → Option Obstacle
  | _, .int n => numberObstacle? digits n
  | _, .bytes bs => some (.kind (.value (Value.bytes bs).kindName))
  | _, .foreign => some (.kind (.value Value.foreign.kindName))
  | 0, .list _ => some .tooDeep
  | depth + 1, .list items => itemObstacle? digits depth items
  | 0, .object _ => some .tooDeep
  | depth + 1, .object fields => fieldObstacle? digits depth fields
  | _, _ => none

/-- The first obstacle among items. -/
def itemObstacle? (digits depth : Nat) : List Value → Option Obstacle
  | [] => none
  | v :: rest => (obstacle? digits depth v).or (itemObstacle? digits depth rest)

/-- The first obstacle among fields. -/
def fieldObstacle? (digits depth : Nat) : List (Name × Value) → Option Obstacle
  | [] => none
  | (k, v) :: rest =>
    ((nameObstacle? digits k).or (obstacle? digits depth v)).or
      (fieldObstacle? digits depth rest)

end

end RecordSeal.Json
