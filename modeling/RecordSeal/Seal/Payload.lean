import RecordSeal.Policy
import RecordSeal.Seal.Description

set_option autoImplicit false

/-! # What a signature covers

A signature covers the table and key names of the context, the description, and the signed
attributes that the record has. They are written as one object, compact and with sorted fields, so
that neither the order of attributes nor that of policies matters. -/

namespace RecordSeal

/-- What a record is bound to besides its own contents: as a rule texts, but any value will do. -/
structure Context where
  table : Value
  /-- The name of the hash key; null for none. -/
  hashKey : Value
  /-- The name of the range key; null for none. -/
  rangeKey : Value

/-- The signed attributes that a record has, in the order of the policies. -/
def signedPart (record : Record) (policies : FieldPolicies) : Record :=
  policies.filterMap fun (name, flags) =>
    if flags.sign then (record.get? name).map (name, ·) else none

/-- The object that a signature covers. -/
def signingObject (record : Record) (policies : FieldPolicies) (context : Context)
    (description : Value) : Value :=
  .object [
    ("table", context.table),
    ("hash_key", context.hashKey),
    ("range_key", context.rangeKey),
    ("material_description", description),
    ("attributes", .object (signedPart record policies))]

/-- The bytes that are signed for a value: its compact JSON text, sorted at every depth. -/
def Value.signed (lim : Json.Limits) (v : Value) : Except Failure (List UInt8) :=
  match v.misfit? with
  | some (later, earlier) => .error (.mismatched (.notOrdered later.kindName earlier.kindName))
  | none => (v.sorted.json lim Json.compact).map Text.utf8

/-- The bytes that a signature covers. -/
def signingPayload (lim : Json.Limits) (record : Record) (policies : FieldPolicies)
    (context : Context) (description : Value) : Except Failure (List UInt8) :=
  (signingObject record policies context description).signed lim

end RecordSeal
