import RecordSeal.Value
import RecordSeal.Failure

set_option autoImplicit false

/-! # Policies

A policy says for each attribute whether it is encrypted and whether it is signed. The policy of a
model type (`ClassPolicy`) covers the attributes the type declares; `ClassPolicy.reconcile` extends
it to the attributes found in a stored record. -/

namespace RecordSeal

/-- The name that a value is; a value that can change is refused as a name. -/
def Value.toName (v : Value) : Except Failure Name :=
  match v.name? with
  | some n => .ok n
  | none => .error (.mismatched (.notName v.kindName))

/-- The names that values are, in order; the first value that is no name counts. -/
def namesOf : List Value → Except Failure (List Name)
  | [] => .ok []
  | v :: rest => do
    let name ← v.toName
    pure (name :: (← namesOf rest))

/-! ## Flags -/

/-- What is done to an attribute. -/
structure Flags where
  encrypt : Bool
  sign : Bool
  deriving DecidableEq

namespace Flags

/-- Neither encrypted nor signed. -/
def none : Flags := ⟨false, false⟩

/-- Whether anything is done. -/
def isAny (f : Flags) : Bool := f.encrypt || f.sign

/-- The names of the flags that are set, in alphabetical order. -/
def names (f : Flags) : List String :=
  (if f.encrypt then ["ENCRYPT"] else []) ++ (if f.sign then ["SIGN"] else [])

/-- Reads the names of flags, in any order and number. -/
def ofValues : List Value → Except Failure Flags
  | [] => .ok none
  | .text "ENCRYPT" :: rest => (ofValues rest).map ({ · with encrypt := true })
  | .text "SIGN" :: rest => (ofValues rest).map ({ · with sign := true })
  | v :: _ => .error (.refused (.unknownFlag v.quote))

end Flags

/-- Flags by attribute name. -/
abbrev FieldPolicies := Assoc Name Flags

/-- The flags of an attribute; an attribute that is not listed has none. -/
def FieldPolicies.flagsOf (policies : FieldPolicies) (name : Name) : Flags :=
  (Assoc.get? policies name).getD .none

/-! ## Class policies -/

/-- The policy of a model type. -/
structure ClassPolicy where
  /-- Flags of the attributes the type declares. -/
  fields : FieldPolicies := []
  /-- The whole type is exempt. -/
  doNotTouch : Bool := false
  /-- Flags of stored attributes the type does not declare. -/
  unknown : Flags := .none

namespace ClassPolicy

/-- Adds the names that are neither listed nor reserved, with the flags of unknown attributes. -/
def extend (unknown : Flags) (reserved : List Name) :
    FieldPolicies → List Name → FieldPolicies
  | policies, [] => policies
  | policies, name :: rest =>
    if policies.contains name || reserved.contains name then extend unknown reserved policies rest
    else extend unknown reserved (policies.insert name unknown) rest

/-- The policy for a record with the given attribute names. Exempt types keep their policy. -/
def reconcile (p : ClassPolicy) (names reserved : List Name) : FieldPolicies :=
  if p.doNotTouch then p.fields else extend p.unknown reserved p.fields names

/-- The policy for a record with attribute names that are given as values. The reserved names are
looked at first, and no name of an exempt type is. -/
def reconcileValues (p : ClassPolicy) (names reserved : List Value) :
    Except Failure FieldPolicies :=
  if p.doNotTouch then .ok p.fields
  else do
    let reserved ← namesOf reserved
    pure (p.reconcile (← namesOf names) reserved)

/-- Two policies that say the same, whatever the order of their attributes. -/
def agrees (p q : ClassPolicy) : Bool :=
  p.fields.agrees q.fields && p.doNotTouch = q.doNotTouch && p.unknown = q.unknown

/-- Flag names as a value. -/
def flagsValue (f : Flags) : Value := .list (f.names.map .text)

/-- The policy as an object. -/
def toValue (p : ClassPolicy) : Record :=
  [("do_not_touch", .bool p.doNotTouch),
    ("fields", .object (p.fields.mapValues flagsValue)),
    ("unknown_attributes", flagsValue p.unknown)]

end ClassPolicy

end RecordSeal
