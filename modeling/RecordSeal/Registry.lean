import RecordSeal.Act
import RecordSeal.Model
import RecordSeal.Policy

set_option autoImplicit false

/-! # Registries

A registry answers what classification asks about model types. It works out the mappings of a
document type on first use and keeps them; other types are registered with their mappings. A later
registration of a type replaces the earlier one. -/

namespace RecordSeal

/-- What has been registered, worked out and named. -/
structure Registry where
  /-- Mappings registered or worked out. -/
  mappings : Assoc ModelId (List FieldMapping) := []
  /-- Markers given at registration. -/
  markers : Assoc ModelId Markers := []
  /-- Table names given at registration. -/
  tables : Assoc ModelId Value := []
  /-- Types by name. -/
  models : Assoc String ModelId := []

/-- What a registration gives. A table name or an override that does not count as given is none. -/
structure Registration where
  mappings : List FieldMapping
  table : Value := .null
  doNotTouch : Bool := false
  doNotEncrypt : Bool := false
  handleUnknown : Bool := false
  tableOverride : Value := .null

namespace Registration

/-- The markers of a registration. -/
def markers (r : Registration) : Markers :=
  { doNotTouch := r.doNotTouch, doNotEncrypt := r.doNotEncrypt, handleUnknown := r.handleUnknown
    tableOverride := some r.tableOverride |>.filter Value.isGiven }

end Registration

namespace Registry

/-- The name under which registries log. -/
def source : String := "fieldseal.registry.mappings"

/-! ## Names -/

/-- Makes a type known by its name; the later of two types of one name wins, with a warning. -/
def registerModel (f : Forest) (id : ModelId) : Act Registry Unit := do
  let r ← get
  let t := f.typeAt id
  match r.models.get? t.name with
  | some previous =>
    if previous ≠ id then
      let replaced := (f.typeAt previous).qualifiedName
      Act.note .warning source
        s!"Model name {t.name} now refers to {t.qualifiedName}, replacing {replaced}"
  | none => pure ()
  set { r with models := r.models.insert t.name id }

/-- The type of a name. Only texts are names of types. -/
def modelType (r : Registry) (name : Value) : Except Failure ModelId := do
  match (← name.toName) with
  | .text s =>
    match r.models.get? s with
    | some id => .ok id
    | none => .error (unregistered s)
  | other => .error (unregistered other.shown)
where
  /-- The failure for a name that no type has. -/
  unregistered (shown : String) : Failure :=
    .noEntry (Text.quote s!"Model type {shown} is not registered")

/-! ## Registration -/

/-- Registers a type with its mappings and markers. Without a table name an earlier one stays. -/
def register (f : Forest) (id : ModelId) (given : Registration) : Act Registry Unit := do
  modify fun r => { r with
    mappings := r.mappings.insert id given.mappings
    markers := r.markers.insert id given.markers
    tables := if given.table.isGiven then r.tables.insert id given.table else r.tables }
  registerModel f id
  Act.note .debug source s!"Registered {(f.typeAt id).name} with {given.mappings.length} fields"

/-- Forgets everything. -/
def clear : Act Registry Unit := set ({} : Registry)

/-! ## Answers -/

/-- The mappings of the fields of a document type, in their order. -/
def mappingsOfFields : List (String × Field) → Except Failure (List FieldMapping)
  | [] => .ok []
  | (name, field) :: rest => do
    let m ← FieldMapping.ofField name field
    pure (m :: (← mappingsOfFields rest))

/-- The mappings of a type: those kept, else those of its fields, which are kept from then on. -/
def fieldMappings (f : Forest) (id : ModelId) : Act Registry (List FieldMapping) := do
  let r ← get
  match r.mappings.get? id with
  | some mappings => pure mappings
  | none =>
    let t := f.typeAt id
    if t.isDocument then
      let mappings ← Act.ofExcept (mappingsOfFields t.fields)
      set { r with mappings := r.mappings.insert id mappings }
      pure mappings
    else Act.fail (.mismatched (.notClassifiable t.shown))

/-- The markers of a type: its own or inherited ones together with those registered. -/
def markersOf (r : Registry) (f : Forest) (id : ModelId) : Markers :=
  (f.markersOf id).join ((r.markers.get? id).getD {})

/-- The stored names of the last field marked as hash key and of the last one marked as range key;
null if there is none. -/
def keyNamesOf (mappings : List FieldMapping) : Value × Value :=
  let last (isMarked : FieldMapping → Bool) : Value :=
    ((mappings.filter isMarked).getLast?.map (·.attributeName)).getD .null
  (last (·.markers.hashKey.isGiven), last (·.markers.rangeKey.isGiven))

/-- The stored names of the hash and range keys of a type. -/
def keyNames (f : Forest) (id : ModelId) : Act Registry (Value × Value) := do
  pure (keyNamesOf (← fieldMappings f id))

/-- The table of a type: the one registered, else its own or inherited one, else its name. -/
def tableName (r : Registry) (f : Forest) (id : ModelId) : Value :=
  match r.tables.get? id with
  | some table => table
  | none => (f.tableOf id).orElse (.text (f.typeAt id).name)

end Registry

end RecordSeal
