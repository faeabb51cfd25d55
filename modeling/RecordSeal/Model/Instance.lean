import RecordSeal.Model
import RecordSeal.Model.Acceptance

set_option autoImplicit false

/-! # Instances of model types

A record is validated into an instance: each field is looked up under the name it is read under,
and in a sealed type under its own name as well. An instance is dumped under the names fields are
written under, whole or only what was provided. Validation and dump are those of the eight types of
`FieldType`, of which no other type has part. -/

namespace RecordSeal

/-- An instance of a document type. -/
structure Instance where
  model : ModelId
  /-- The value of every field, by field name. -/
  values : Record
  /-- The names of the fields that were provided. -/
  provided : List String

/-! ## Validation -/

/-- The key under which a record holds a field, if it does: the name the field is read under,
else, where that is allowed, its own name. -/
def Field.keyIn (f : Field) (byName : Bool) (name : String) (record : Record) : Option String :=
  let key := f.readName.getD name
  if record.contains key then some key
  else if byName && record.contains name then some name
  else none

/-- The value of a field in a record, and whether the record provides it. -/
def Field.read (f : Field) (byName : Bool) (name : String) (record : Record) :
    Except (List Issue) (Value × Bool) :=
  match f.keyIn byName name record with
  | some key =>
    (f.type.accept [.key key] ((record.get? key).getD .null)).map (·, true)
  | none =>
    match f.default with
    | some v => .ok (v, false)
    | none => .error [⟨[.key (f.readName.getD name)], "missing"⟩]

/-- Reads the fields of a type from a record: values and provided names, or everything that is
wrong. -/
def readFields (byName : Bool) (record : Record) :
    List (String × Field) → Except (List Issue) (Record × List String)
  | [] => .ok ([], [])
  | (name, field) :: rest =>
    -- The other fields are read in any case, so that every issue is found.
    match field.read byName name record, readFields byName record rest with
    | .ok (v, given), .ok (values, provided) =>
      .ok ((name, v) :: values, if given then name :: provided else provided)
    | .error issues, .ok _ => .error issues
    | .ok _, .error issues => .error issues
    | .error issues, .error more => .error (issues ++ more)

/-- Validates a record into an instance of a type. -/
def Forest.validate (f : Forest) (id : ModelId) (record : Record) : Except Failure Instance :=
  let t := f.typeAt id
  if t.isDocument then
    match readFields (t.kind = .sealedDocument) record t.fields with
    | .ok (values, provided) => .ok { model := id, values, provided }
    | .error issues => .error (.invalid issues)
  else .error (.lacking (.ofType t.name "model_validate"))

/-- Validates a value into an instance of a type; only a record can become one. -/
def Forest.validateValue (f : Forest) (id : ModelId) (v : Value) : Except Failure Instance :=
  match v with
  | .object record => f.validate id record
  | _ =>
    let t := f.typeAt id
    if t.isDocument then .error (.invalid [⟨[], "model_type"⟩])
    else .error (.lacking (.ofType t.name "model_validate"))

/-! ## Dumps -/

mutual

/-- The form in which a value of no particular type is written: bytes as the text they encode, and
null for numbers that are infinite or undefined. Foreign objects have no such form. -/
def Value.written : Value → Except Failure Value
  | .float x => .ok (if x.isFinite then .float x else .null)
  | .bytes bs =>
    ((Text.ofUtf8 bs).map fun cs => .text (String.ofList cs)).mapError
      fun fault => .malformedText fault.brief
  | .foreign => .error .unknownObject
  | .list items => (Value.writtenItems items).map .list
  | .object fields => (Value.writtenFields fields).map .object
  | v => .ok v

/-- The written forms of items; the first failure counts. -/
def Value.writtenItems : List Value → Except Failure (List Value)
  | [] => .ok []
  | v :: rest => do
    let w ← v.written
    pure (w :: (← Value.writtenItems rest))

/-- The written forms of fields; the first failure counts. -/
def Value.writtenFields : List (Name × Value) → Except Failure (List (Name × Value))
  | [] => .ok []
  | (k, v) :: rest => do
    let w ← v.written
    pure ((k, w) :: (← Value.writtenFields rest))

end

/-- The floating-point number that a whole one becomes. -/
def floatOf (n : Int) : Except Failure Value :=
  let x := Binary64.ofInt n
  if x.isFinite then .ok (.float x) else .error (.exceeded .tooLargeForFloat)

/-- The form in which a field's value is written. A floating-point field keeps any number and makes
whole numbers and truth values floating-point ones; a whole-number field makes truth values whole
numbers. -/
def FieldType.write (type : FieldType) (v : Value) : Except Failure Value :=
  match type, v with
  | .float, .float x => .ok (.float x)
  | .float, .int n => floatOf n
  | .float, .bool b => floatOf (if b then 1 else 0)
  | .int, .bool b => .ok (.int (if b then 1 else 0))
  | _, v => v.written

/-- Writes fields under their keys; a later field of one key takes the earlier one's place. -/
def dumpFields (values : Record) (keep : String → Bool) :
    List (String × Field) → Record → Except Failure Record
  | [], out => .ok out
  | (name, field) :: rest, out =>
    if keep name then do
      let v ← field.type.write ((values.get? name).getD .null)
      dumpFields values keep rest (out.insert (field.writeKey name) v)
    else dumpFields values keep rest out

/-- The record of an instance; a partial one holds only what was provided. -/
def Instance.dump (m : Instance) (t : ModelType) (isPartial : Bool) : Except Failure Record :=
  dumpFields m.values (fun name => !isPartial || m.provided.contains name) t.fields []

end RecordSeal
