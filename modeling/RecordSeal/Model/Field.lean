import RecordSeal.Policy

set_option autoImplicit false

/-! # Fields

A model type has fields. Each has a type, perhaps a default, the name it is written under, the
name it is read under, and markers; `FieldMapping` is what classification sees of it. The names of
a mapping may be given as any value and are taken for names only when it is used.

Of the types that a field can be declared with, eight are here (`FieldType`): texts, texts or null,
numbers of both kinds, truth values, lists of texts, objects, and values of any kind. What is said
of instances, of what fields take and of what is written for them is said of fields of these types;
unions, nested model types, enumerations, dates and fields with validators of their own are left
out. -/

namespace RecordSeal

/-! ## Declarations -/

/-- The types a field may have here. -/
inductive FieldType where
  | text
  | optionalText
  | int
  | float
  | bool
  | any
  | texts
  | object
  deriving DecidableEq

/-- The markers of a field, as the values they were given; one that counts as given is set. -/
structure FieldMarkers where
  hashKey : Value := .bool false
  rangeKey : Value := .bool false
  version : Value := .bool false
  doNotEncrypt : Value := .bool false
  doNotTouch : Value := .bool false

namespace FieldMarkers

/-- The entry of a field's extra data that holds its markers. -/
def extraKey : String := "fieldseal"

/-- Markers as an object. -/
def toValue (m : FieldMarkers) : Record :=
  [("hash_key", m.hashKey), ("range_key", m.rangeKey), ("version", m.version),
    ("do_not_encrypt", m.doNotEncrypt), ("do_not_touch", m.doNotTouch)]

end FieldMarkers

/-- How a field is declared: with markers, as a plain field, or by its type alone. -/
inductive DeclarationKind where
  | marked
  | plain
  | bare
  deriving DecidableEq

/-- A field declaration. An option that is present holds a value, which may be null. -/
structure Declaration where
  name : String
  type : FieldType
  default : Option Value := none
  kind : DeclarationKind := .marked
  aliasName : Option Value := none
  writeAlias : Option Value := none
  readAlias : Option Value := none
  extra : Option Value := none
  markers : FieldMarkers := {}

namespace Declaration

/-- Whether a name begins with an underscore; fields of such names are not seen. -/
def isHiddenName (name : String) : Bool := name.toList.head? = some '_'

/-- Whether the declared field is not seen. -/
def isHidden (d : Declaration) : Bool := isHiddenName d.name

end Declaration

/-- A field of a model type. -/
structure Field where
  type : FieldType
  default : Option Value
  /-- Its alias. -/
  aliasName : Option String := none
  /-- The name it is written under, if not its own. -/
  writeName : Option String
  /-- The name it is read under, if not its own. -/
  readName : Option String
  /-- What its extra data holds under the markers' entry. -/
  markers : Value

namespace Field

/-! ## Extra data -/

/-- Makes sure that a value can be a pair of a name and a value: a list, a text or an object with
two parts, the first of which is a name. `index` is its place among others. -/
def checkPair (index : Nat) : Value → Except Failure Unit
  | .list [k, _] => k.toName.map fun _ => ()
  | .list items => .error (.refused (.notPair index items.length))
  | .text s => if s.length = 2 then .ok () else .error (.refused (.notPair index s.length))
  | .object fields =>
    if fields.length = 2 then .ok () else .error (.refused (.notPair index fields.length))
  | _ => .error (.mismatched (.notSequence index))

/-- Makes sure that items can be pairs; the first one that cannot counts. -/
def checkPairs (index : Nat) : List Value → Except Failure Unit
  | [] => .ok ()
  | v :: rest => do
    checkPair index v
    checkPairs (index + 1) rest

/-- Makes sure that extra data has the form of an object or of a list of pairs. Extra data that
does not count as given may have any form. -/
def checkExtra (extra : Value) : Except Failure Unit :=
  if !extra.isGiven then .ok () else
  match extra with
  | .object _ => .ok ()
  | .list items => checkPairs 0 items
  | .text _ => .error (.refused (.notPair 0 1))
  | v => .error (.mismatched (.notIterable v.kindName))

/-- The markers' entry of extra data; extra data of another kind holds none. -/
def markersIn : Option Value → Value
  | some (.object fields) => (Assoc.get? fields FieldMarkers.extraKey).getD (.object [])
  | _ => .object []

/-! ## Fields from declarations -/

/-- The field of a declaration without options. -/
def ofBare (d : Declaration) : Field :=
  { type := d.type, default := d.default, writeName := none, readName := none,
    markers := .object [] }

/-- The field of a plain declaration. An alias is the name for writing and for reading, unless
another one is given for either. -/
def ofPlain (d : Declaration) : Except Failure Field :=
  let aliasText := d.aliasName.bind Value.text?
  let readAlias := d.readAlias.getD .null
  if readAlias.isGiven && readAlias.text?.isNone then
    .error (.mismatched (.notAlias "validation_alias"))
  else
    .ok { type := d.type, default := d.default, aliasName := aliasText,
          writeName := (d.writeAlias.bind Value.text?).or aliasText,
          readName := readAlias.text?.or aliasText, markers := markersIn d.extra }

/-- The field of a marked declaration. It accepts no split names, so that it is read under the name
it is written under. -/
def ofMarked (d : Declaration) : Except Failure Field := do
  if d.writeAlias.isSome then throw (.refused (.splitAlias "serialization_alias"))
  if d.readAlias.isSome then throw (.refused (.splitAlias "validation_alias"))
  checkExtra (d.extra.getD .null)
  let aliasText := d.aliasName.bind Value.text?
  pure { type := d.type, default := d.default, aliasName := aliasText, writeName := aliasText,
         readName := aliasText, markers := .object d.markers.toValue }

/-- The field that a declaration describes. -/
def ofDeclaration (d : Declaration) : Except Failure Field :=
  match d.kind with
  | .bare => .ok (ofBare d)
  | .plain => ofPlain d
  | .marked => ofMarked d

/-- The name under which classification expects a field called `name` to be stored: the name it is
written under, else its alias, else its own; an empty one does not count. -/
def storedName (f : Field) (name : String) : String :=
  ((f.writeName.filter (· ≠ "")).or (f.aliasName.filter (· ≠ ""))).getD name

/-- The key under which a dump by alias writes a field called `name`. -/
def writeKey (f : Field) (name : String) : String := f.writeName.getD name

end Field

/-! ## Mappings -/

/-- What classification sees of a field: its name, the name it is stored under, its markers. -/
structure FieldMapping where
  name : Value
  attributeName : Value
  markers : FieldMarkers := {}

namespace FieldMapping

/-- Whether the field is part of the primary key. -/
def isKey (m : FieldMapping) : Bool := m.markers.hashKey.isGiven || m.markers.rangeKey.isGiven

/-- The value that says whether the field is part of the primary key. -/
def primaryKey (m : FieldMapping) : Value := m.markers.hashKey.orElse m.markers.rangeKey

/-- The names a mapping takes arguments under. -/
def argumentNames : List String :=
  ["name", "attribute_name", "hash_key", "range_key", "version", "do_not_encrypt",
    "do_not_touch"]

/-- A mapping from named arguments: the two names are required, nothing else is accepted. -/
def ofArguments (arguments : Record) : Except Failure FieldMapping :=
  let argument (k : String) : Value := (arguments.get? k).getD (.bool false)
  match arguments.keys.find? fun k => !argumentNames.contains k.shown with
  | some k => .error (.mismatched (.arguments (.unexpected k.shown)))
  | none =>
    match ["name", "attribute_name"].filter fun k => !arguments.contains (Name.text k) with
    | [] =>
      .ok { name := argument "name", attributeName := argument "attribute_name",
            markers := {
              hashKey := argument "hash_key", rangeKey := argument "range_key",
              version := argument "version", doNotEncrypt := argument "do_not_encrypt",
              doNotTouch := argument "do_not_touch" } }
    | missing => .error (.mismatched (.arguments (.missing missing)))

/-- The mapping of a field. -/
def ofField (name : String) (f : Field) : Except Failure FieldMapping :=
  match f.markers with
  | .object markers =>
    match markers.find? fun e => e.1 = .text "name" ∨ e.1 = .text "attribute_name" with
    | some e => .error (.mismatched (.arguments (.repeated e.1.shown)))
    | none =>
      ofArguments (("name", .text name) :: ("attribute_name", .text (f.storedName name)) :: markers)
  | v => .error (.mismatched (.arguments (.notMapping v.kindName)))

end FieldMapping

end RecordSeal
