import RecordSeal.Model.Field
import RecordSeal.Model.Marker

set_option autoImplicit false

/-! # Model types

Model types form a forest under three roots: the plain types, the document types, which have
fields, and the sealed types among these. The types of what the policy service takes and answers
are there from the beginning, too. A type without markers of its own has those of the nearest
ancestor that has some; the table name is inherited likewise. -/

namespace RecordSeal

/-- The place of a model type in the forest. -/
structure ModelId where
  index : Nat
  deriving DecidableEq

/-- What a model type is good for. -/
inductive ModelKind where
  /-- A type without fields of its own account; it can be registered. -/
  | plain
  /-- A type with fields. -/
  | document
  /-- A type with fields that is registered by name when it is created. -/
  | sealedDocument
  deriving DecidableEq

/-- A model type. -/
structure ModelType where
  name : String
  module : String
  kind : ModelKind
  /-- The type itself and its ancestors, nearest first. -/
  lineage : List ModelId
  /-- Its fields, inherited ones first. -/
  fields : Assoc String Field := []
  /-- What it says about its table name, if anything. -/
  table : Option Value := none
  /-- Its own markers. -/
  markers : Option Markers := none

namespace ModelType

/-- Whether the type has fields. -/
def isDocument (t : ModelType) : Bool := t.kind ≠ .plain

/-- The name of the type with its module. -/
def qualifiedName (t : ModelType) : String := s!"{t.module}.{t.name}"

/-- The type as messages show it; built-in types are shown without a module. -/
def shown (t : ModelType) : String :=
  if t.module = "builtins" then s!"<class '{t.name}'>" else s!"<class '{t.qualifiedName}'>"

end ModelType

/-- All model types; a type's place is its position. -/
structure Forest where
  types : List ModelType

namespace Forest

/-- The root of the plain types. -/
def plainRoot : ModelId := ⟨0⟩

/-- The root of the document types. -/
def documentRoot : ModelId := ⟨1⟩

/-- The root of the sealed types. -/
def sealedRoot : ModelId := ⟨2⟩

/-- The type at the root of the plain types. -/
def plainType : ModelType :=
  { name := "object", module := "builtins", kind := .plain, lineage := [plainRoot] }

/-- The type at the root of the document types. -/
def documentType : ModelType :=
  { name := "BaseModel", module := "pydantic.main", kind := .document,
    lineage := [documentRoot, plainRoot] }

/-- The type at the root of the sealed types. -/
def sealedType : ModelType :=
  { name := "SealedModel", module := "fieldseal.models.sealed_model", kind := .sealedDocument,
    lineage := [sealedRoot, documentRoot, plainRoot] }

/-- A document type that describes what the policy service takes or answers, with its place. -/
def serviceType (place : Nat) (name : String) (fields : List (String × FieldType)) : ModelType :=
  { name, module := "fieldseal.service.api", kind := .document,
    lineage := [⟨place⟩, documentRoot, plainRoot]
    fields := fields.map fun (name, type) => (name, .ofBare { name, type, kind := .bare }) }

/-- The type of the service's reports on a policy. -/
def policyResponse : ModelId := ⟨3⟩

/-- The type of the attribute names that the service takes. -/
def resolvePayload : ModelId := ⟨4⟩

/-- The type of the service's reports on attribute names. -/
def resolveResponse : ModelId := ⟨5⟩

/-- The types that are there from the beginning: the three roots and those of the service. -/
def roots : Forest := ⟨[plainType, documentType, sealedType,
  serviceType policyResponse.index "PolicyResponse" [("model", .text), ("table_name", .text),
    ("context_table_name", .text), ("do_not_touch", .bool), ("fields", .object),
    ("unknown_attributes", .texts)],
  serviceType resolvePayload.index "ResolvePayload" [("attributes", .texts)],
  serviceType resolveResponse.index "ResolveResponse" [("model", .text), ("policies", .object)]]⟩

/-- The type at a place; a place outside the forest has the plain root's. -/
def typeAt (f : Forest) (id : ModelId) : ModelType := f.types.getD id.index plainType

/-- Changes the type at a place. -/
def update (f : Forest) (id : ModelId) (g : ModelType → ModelType) : Forest :=
  ⟨f.types.modify id.index g⟩

/-- Adds a type below another one. A field that is declared again keeps its place. -/
def addType (f : Forest) (base : ModelId) (name module : String) (table : Option Value)
    (fields : Assoc String Field) : ModelId × Forest :=
  let parent := f.typeAt base
  let id : ModelId := ⟨f.types.length⟩
  let t : ModelType :=
    { name, module, kind := parent.kind, lineage := id :: parent.lineage,
      fields := parent.fields.insertAll fields, table }
  (id, ⟨f.types ++ [t]⟩)

/-! ## Inherited properties -/

/-- The first of a property along the lineage of a type. -/
def nearest {α : Type} (f : Forest) (property : ModelType → Option α) (id : ModelId) : Option α :=
  (f.typeAt id).lineage.findSome? fun a => property (f.typeAt a)

/-- The markers of a type: its own, else those of the nearest ancestor that has some. -/
def markersOf (f : Forest) (id : ModelId) : Markers := (f.nearest (·.markers) id).getD {}

/-- The table name that a type has or inherits; null if there is none. -/
def tableOf (f : Forest) (id : ModelId) : Value := (f.nearest (·.table) id).getD .null

/-- The name under which a type holds its markers. -/
def markersMember : String := "__seal_markers__"

/-- Places a marker on a type, beside the markers it has or inherits. The root of the plain types
takes none. -/
def mark (f : Forest) (id : ModelId) (marker : Marker) : Except Failure Forest := do
  let markers ← (f.markersOf id).add marker
  if id = plainRoot then throw (.mismatched (.immutableType plainType.name markersMember))
  pure (f.update id ({ · with markers := some markers }))

/-- The latest type of a module with a given name. -/
def findInModule (f : Forest) (module name : String) : Option ModelId :=
  let places := (List.range f.types.length).filter fun i =>
    (f.typeAt ⟨i⟩).module = module ∧ (f.typeAt ⟨i⟩).name = name
  places.getLast?.map ModelId.mk

end Forest

end RecordSeal
