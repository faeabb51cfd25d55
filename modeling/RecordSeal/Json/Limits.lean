import RecordSeal.Number.Literal

set_option autoImplicit false

/-! # Limits of JSON texts

Texts are read and written up to limits: whole numbers up to a number of digits, and lists and
objects inside each other up to a depth. What is written under some limits is read under them and
under wider ones. The limits are those of the host, so whatever reads or writes is given them. -/

namespace RecordSeal.Json

/-- How many digits a whole number may have, and how many lists and objects may enclose a value. -/
structure Limits where
  digits : Nat
  depth : Nat

/-- Limits that no text of this length goes beyond. -/
def Limits.loose (length : Nat) : Limits := ⟨length, length⟩

/-- Whether some limits are not wider than others. -/
structure Limits.Within (l m : Limits) : Prop where
  digits : l.digits ≤ m.digits
  depth : l.depth ≤ m.depth

/-- What holds other values. -/
inductive Container where
  | array
  | object
  deriving DecidableEq

/-- The word for a container. -/
def Container.text : Container → String
  | .array => "array"
  | .object => "object"

end RecordSeal.Json
