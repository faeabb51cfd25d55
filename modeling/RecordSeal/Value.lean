import RecordSeal.Assoc
import RecordSeal.Name

set_option autoImplicit false

/-! # Values

Attributes, settings and field defaults hold values: the kinds that can be written as JSON, and
byte strings and foreign objects, which cannot. Objects keep the order of their fields; a record
is such a list of fields. -/

namespace RecordSeal

/-- A value of any kind. -/
inductive Value where
  | null
  | bool (b : Bool)
  | int (n : Int)
  | float (x : Binary64)
  | text (s : String)
  /-- A text that holds lone surrogates. -/
  | brokenText (ps : List Text.Point)
  | list (items : List Value)
  | object (fields : List (Name × Value))
  | bytes (bs : List UInt8)
  /-- An object of which only its kind is known. -/
  | foreign

/-- The attributes of a record, by name, in order. -/
abbrev Record := Assoc Name Value

namespace Value

instance : Inhabited Value := ⟨.null⟩

/-- The name of a value's kind, as messages give it. -/
def kindName : Value → String
  | .null => "NoneType"
  | .bool _ => "bool"
  | .int _ => "int"
  | .float _ => "float"
  | .text _ => "str"
  | .brokenText _ => "str"
  | .list _ => "list"
  | .object _ => "dict"
  | .bytes _ => "bytes"
  | .foreign => "Opaque"

/-- Whether a value counts as given: null, false, zeros and everything empty do not. -/
def isGiven : Value → Bool
  | .null => false
  | .bool b => b
  | .int n => n ≠ 0
  | .float x => !x.isZero
  | .text s => s ≠ ""
  | .brokenText ps => !ps.isEmpty
  | .list items => !items.isEmpty
  | .object fields => !fields.isEmpty
  | .bytes bs => !bs.isEmpty
  | .foreign => true

/-- Whether a value is null. -/
def isNull : Value → Bool
  | .null => true
  | _ => false

/-- The value itself if it counts as given, else the other one. -/
def orElse (v w : Value) : Value := if v.isGiven then v else w

/-- The value of a text that may hold lone surrogates. -/
def ofPoints (ps : List Text.Point) : Value :=
  match Text.chars? ps with
  | some cs => .text (String.ofList cs)
  | none => .brokenText ps

/-- An optional text as a value. -/
def ofText? : Option String → Value
  | some s => .text s
  | none => .null

/-- The text of a text value, if it holds no lone surrogate. -/
def text? : Value → Option String
  | .text s => some s
  | _ => none

/-- The fields of an object. -/
def object? : Value → Option Record
  | .object fields => some fields
  | _ => none

/-! ## Values as names -/

/-- The name that a value can be: values that can change are none. -/
def name? : Value → Option Name
  | .null => some .null
  | .bool b => some (.bool b)
  | .int n => some (.int n)
  | .float x => some (.float x)
  | .text s => some (.text s)
  | .brokenText ps => some (.brokenText ps)
  | .bytes bs => some (.bytes bs)
  | _ => none

/-- A name as a value; of a name of another kind only the kind of value is left. -/
def ofName : Name → Value
  | .null => .null
  | .bool b => .bool b
  | .int n => .int n
  | .float x => .float x
  | .text s => .text s
  | .brokenText ps => .brokenText ps
  | .bytes bs => .bytes bs
  | .other .. => .foreign

/-! ## How a value is shown -/

mutual

/-- A value inside a message or a larger value: texts in quotes. -/
def quoted : Value → List Char
  | .null => Name.null.quoted
  | .bool b => (Name.bool b).quoted
  | .int n => (Name.int n).quoted
  | .float x => (Name.float x).quoted
  | .text s => (Name.text s).quoted
  | .brokenText ps => (Name.brokenText ps).quoted
  | .list items => '[' :: quotedItems items ++ [']']
  | .object fields => '{' :: quotedFields fields ++ ['}']
  | .bytes bs => (Name.bytes bs).quoted
  | .foreign => "<Opaque>".toList

/-- Items between commas. -/
def quotedItems : List Value → List Char
  | [] => []
  | [v] => v.quoted
  | v :: rest => v.quoted ++ ',' :: ' ' :: quotedItems rest

/-- Fields between commas. -/
def quotedFields : List (Name × Value) → List Char
  | [] => []
  | [(k, v)] => k.quoted ++ ':' :: ' ' :: v.quoted
  | (k, v) :: rest => k.quoted ++ ':' :: ' ' :: v.quoted ++ ',' :: ' ' :: quotedFields rest

end

/-- A value on its own: a text as it is, anything else as inside a message. -/
def shown : Value → String
  | .text s => s
  | .brokenText ps => Text.replaced ps
  | v => String.ofList v.quoted

/-- The quoted form as a string. -/
def quote (v : Value) : String := String.ofList v.quoted

end Value

end RecordSeal
