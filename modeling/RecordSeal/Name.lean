import RecordSeal.Number.Decimal
import RecordSeal.Text.Quoted

set_option autoImplicit false

/-! # Names

Attributes and fields of objects have names. A name is a text as a rule, but any value that cannot
change can be one: settings files give byte strings and dates as well. Two names are the same if
they are equal or stand for the same number, truth values standing for zero and one; which of them
is shown depends on which came first. -/

namespace RecordSeal

/-- A name. -/
inductive Name where
  | null
  | bool (b : Bool)
  | int (n : Int)
  | float (x : Binary64)
  | text (s : String)
  /-- A text that holds lone surrogates. -/
  | brokenText (ps : List Text.Point)
  | bytes (bs : List UInt8)
  /-- A name of another kind, such as a date, or a further undefined number, which is not the same
  as the first one: of such a kind a label tells names apart. -/
  | other (kind label : String)
  deriving DecidableEq

instance : Coe String Name := ⟨.text⟩

namespace Name

instance : Inhabited Name := ⟨.null⟩

/-! ## Sameness -/

/-- A name in the form that it shares with the names it is the same as: whole numbers stand for
truth values and for floating-point numbers without a fraction. -/
def canonical : Name → Name
  | .bool b => .int (if b then 1 else 0)
  | .float x =>
    match x.whole? with
    | some n => .int n
    | none => .float x
  | name => name

/-- Whether two names are the same. -/
instance : BEq Name := ⟨fun a b => decide (a.canonical = b.canonical)⟩

theorem beq_iff {a b : Name} : (a == b) = true ↔ a.canonical = b.canonical := by
  simp [BEq.beq]

instance : EquivBEq Name where
  rfl := beq_iff.2 rfl
  symm h := beq_iff.2 (beq_iff.1 h).symm
  trans h k := beq_iff.2 ((beq_iff.1 h).trans (beq_iff.1 k))

/-- Texts are the same name only if they are equal. -/
@[simp] theorem text_beq_text {s t : String} : (Name.text s == Name.text t) = decide (s = t) := by
  simp [BEq.beq, canonical]

/-! ## How a name is shown -/

/-- The name of a text that may hold lone surrogates. -/
def ofPoints (ps : List Text.Point) : Name :=
  match Text.chars? ps with
  | some cs => .text (String.ofList cs)
  | none => .brokenText ps

/-- A name inside a message or a larger value: texts in quotes. -/
def quoted : Name → List Char
  | .null => "None".toList
  | .bool true => "True".toList
  | .bool false => "False".toList
  | .int n => Decimal.ofInt n
  | .float x => x.text
  | .text s => Text.quoted s.toList
  | .brokenText ps => Text.quotedPoints ps
  | .bytes bs => Text.quotedBytes bs
  | .other _ label => label.toList

/-- A name on its own: a text as it is, anything else as inside a message. -/
def shown : Name → String
  | .text s => s
  | .brokenText ps => Text.replaced ps
  | name => String.ofList name.quoted

/-- The name of the kind of value that a name is, as messages give it. -/
def kindName : Name → String
  | .null => "NoneType"
  | .bool _ => "bool"
  | .int _ => "int"
  | .float _ => "float"
  | .text _ => "str"
  | .brokenText _ => "str"
  | .bytes _ => "bytes"
  | .other kind _ => kind

end Name

end RecordSeal
