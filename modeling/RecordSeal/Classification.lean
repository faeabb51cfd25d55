import RecordSeal.Registry

set_option autoImplicit false

/-! # Classification

`classify` turns the mappings and markers of a type into its policy. A field is signed unless it
is exempt, and encrypted unless its type or it itself is signed only, or it is a key or a version.
Attributes that a type does not declare are protected only if the type says so. -/

namespace RecordSeal

/-- The flags of a field in a type that is not exempt. -/
def FieldMapping.flags (typeSignedOnly : Bool) (m : FieldMapping) : Flags :=
  if m.markers.doNotTouch.isGiven then .none
  else
    { encrypt := !(typeSignedOnly || m.markers.doNotEncrypt.isGiven || m.isKey ||
        m.markers.version.isGiven)
      sign := true }

/-- The flags of attributes that a type does not declare. -/
def Markers.unknownFlags (m : Markers) : Flags :=
  if m.handleUnknown then { encrypt := !m.doNotEncrypt, sign := true } else .none

/-- The stored names of mappings with their flags, in order; the first value that is no name
counts. -/
def namedFlags (typeSignedOnly : Bool) : List FieldMapping → Except Failure (List (Name × Flags))
  | [] => .ok []
  | m :: rest => do
    let name ← m.attributeName.toName
    pure ((name, m.flags typeSignedOnly) :: (← namedFlags typeSignedOnly rest))

/-- The flags of the stored names; of mappings with one stored name the last one counts. -/
def policiesOf (typeSignedOnly : Bool) (mappings : List FieldMapping) :
    Except Failure FieldPolicies :=
  (namedFlags typeSignedOnly mappings).map Assoc.ofList

/-- The policy of an exempt type. -/
def ClassPolicy.exempt : ClassPolicy := { doNotTouch := true }

/-- The policy of a type with the given markers and mappings. -/
def classifyWith (markers : Markers) (mappings : List FieldMapping) :
    Except Failure ClassPolicy :=
  (policiesOf markers.doNotEncrypt mappings).map fun fields =>
    { fields, unknown := markers.unknownFlags }

/-! ## Providers -/

/-- The place of a registry. -/
structure RegistryId where
  index : Nat
  deriving DecidableEq

/-- Answers that are the same for every type. Asking for mappings may fail. -/
structure FixedAnswers where
  mappings : Except Failure (List FieldMapping) := .ok []
  markers : Markers := {}

/-- Whoever answers what classification asks. -/
inductive Provider where
  | registry (id : RegistryId)
  | fixed (answers : FixedAnswers)

/-- Policies kept for the types they were worked out for, with the provider they come from. -/
structure Cache where
  provider : Provider
  policies : Assoc ModelId ClassPolicy := []

/-- The place of a cache. -/
structure CacheId where
  index : Nat
  deriving DecidableEq

/-- All model types, registries and caches. -/
structure Catalog where
  forest : Forest := .roots
  registries : List Registry := [{}]
  caches : List Cache := [{ provider := .registry ⟨0⟩ }]

namespace Catalog

/-- The registry that everybody shares. -/
def sharedRegistry : RegistryId := ⟨0⟩

/-- The cache that everybody shares, which asks the shared registry. -/
def sharedCache : CacheId := ⟨0⟩

/-- The registry at a place; a place without one has an empty registry. -/
def registryAt (c : Catalog) (id : RegistryId) : Registry := c.registries.getD id.index {}

/-- Does something with a registry. -/
def onRegistry {α : Type} (id : RegistryId) (act : Act Registry α) : Act Catalog α :=
  Act.on (·.registryAt id)
    (fun r c => { c with registries := c.registries.set id.index r }) act

/-- The cache at a place; a place without one has an empty cache of the shared registry. -/
def cacheAt (c : Catalog) (id : CacheId) : Cache :=
  c.caches.getD id.index { provider := .registry sharedRegistry }

/-- Adds an empty registry. -/
def newRegistry : Act Catalog RegistryId := do
  let c ← get
  set { c with registries := c.registries ++ [({} : Registry)] }
  pure ⟨c.registries.length⟩

/-- Adds an empty cache. -/
def newCache (provider : Provider) : Act Catalog CacheId := do
  let c ← get
  set { c with caches := c.caches ++ [({ provider } : Cache)] }
  pure ⟨c.caches.length⟩

/-! ## Types -/

/-- The fields that declarations describe, in their order; the first refused one counts. -/
def fieldsOf : List Declaration → Except Failure (Assoc String Field)
  | [] => .ok []
  | d :: rest => do
    let field ← Field.ofDeclaration d
    pure ((d.name, field) :: (← fieldsOf rest))

/-- Makes sure that a document type may have declarations and a name. A field with a leading
underscore is refused, unless it is declared by its type alone. -/
def checkDefinition (isDocument : Bool) (name : String) (declarations : List Declaration) :
    Except Failure Unit := do
  if isDocument then
    match declarations.find? fun d => d.isHidden && d.kind ≠ .bare with
    | some d => throw (.hiddenField d.name)
    | none => pure ()
  if '\x00' ∈ name.toList then throw (.refused .nullInTypeName)

/-- The name under which types hold what they say about their tables. -/
def tableMember : String := "table_name"

/-- What a type says about its table: what it is given, else, in a type without fields of its own
account, the default of what is declared under that name. -/
def ownTable (isDocument : Bool) (given : Option Value) (declarations : List Declaration) :
    Option Value :=
  if isDocument then given else
  given.or <| (declarations.findRev? fun d => d.name = tableMember && d.kind = .bare).bind
    (·.default)

/-- A declaration in a sealed type below another one. A field that is declared by its type alone
under the name of what types say about their tables has that, as inherited, for its default. -/
def withInherited (f : Forest) (base : ModelId) (d : Declaration) : Declaration :=
  if (f.typeAt base).kind = .sealedDocument && d.kind = .bare && d.name = tableMember then
    { d with default := d.default.or (some (f.tableOf base)) }
  else d

/-- Creates a type. A sealed type is registered by name with the shared registry. -/
def define (base : ModelId) (name module : String) (table : Option Value)
    (declarations : List Declaration) : Act Catalog ModelId := do
  let c ← get
  let fields ← Act.ofExcept (fieldsOf (declarations.map (withInherited c.forest base)))
  let isDocument := (c.forest.typeAt base).isDocument
  Act.ofExcept (checkDefinition isDocument name declarations)
  -- Bare declarations of hidden names pass the check, but make no fields.
  let seen := fields.filter fun e => !Declaration.isHiddenName e.1
  let (id, forest) :=
    c.forest.addType base name module (ownTable isDocument table declarations) seen
  set { c with forest }
  if (forest.typeAt id).kind = .sealedDocument then
    onRegistry sharedRegistry (Registry.registerModel forest id)
  pure id

/-- Places markers on a type, in turn; a refused one leaves those before it. -/
def mark (id : ModelId) : List Marker → Act Catalog Unit
  | [] => pure ()
  | marker :: rest => do
    let c ← get
    let forest ← Act.ofExcept (c.forest.mark id marker)
    set { c with forest }
    mark id rest

/-- The mappings of a type as its own class gives them, from the shared registry. -/
def ownMappings (id : ModelId) : Act Catalog (List FieldMapping) := do
  let c ← get
  let t := c.forest.typeAt id
  match t.kind with
  | .sealedDocument => onRegistry sharedRegistry (Registry.fieldMappings c.forest id)
  | .document => Act.fail (.lacking (.bare "field_mappings"))
  | .plain => Act.fail (.lacking (.ofType t.name "field_mappings"))

end Catalog

/-! ## What a provider answers -/

namespace Provider

/-- The mappings of a type. -/
def fieldMappings (p : Provider) (id : ModelId) : Act Catalog (List FieldMapping) := do
  match p with
  | .fixed answers => Act.ofExcept answers.mappings
  | .registry r =>
    let c ← get
    Catalog.onRegistry r (Registry.fieldMappings c.forest id)

/-- The markers of a type. -/
def markers (p : Provider) (c : Catalog) (id : ModelId) : Markers :=
  match p with
  | .fixed answers => answers.markers
  | .registry r => (c.registryAt r).markersOf c.forest id

/-- The policy of a type. The mappings of an exempt type are not asked for. -/
def classify (p : Provider) (id : ModelId) : Act Catalog ClassPolicy := do
  let c ← get
  let markers := p.markers c id
  if markers.doNotTouch then pure .exempt
  else Act.ofExcept (classifyWith markers (← p.fieldMappings id))

end Provider

/-! ## Caches -/

namespace Cache

/-- The name under which classification logs. -/
def source : String := "fieldseal.encryption.classifier"

/-- Keeps a policy in a cache. -/
def keep (id : CacheId) (model : ModelId) (policy : ClassPolicy) (c : Catalog) : Catalog :=
  { c with caches := c.caches.modify id.index fun k =>
      { k with policies := k.policies.insert model policy } }

/-- The policy of a type: the one kept, else a new one, which is kept from then on. -/
def policy (id : CacheId) (model : ModelId) : Act Catalog ClassPolicy := do
  let cache := (← get).cacheAt id
  match cache.policies.get? model with
  | some policy => pure policy
  | none =>
    let policy ← cache.provider.classify model
    modify (keep id model policy)
    Act.note .debug source s!"Classified {((← get).forest.typeAt model).name}"
    pure policy

/-- Whether a policy is kept for a type. -/
def contains (c : Catalog) (id : CacheId) (model : ModelId) : Bool :=
  (c.cacheAt id).policies.contains model

/-- Drops the policies of a cache. -/
def clear (id : CacheId) : Act Catalog Unit :=
  modify fun c => { c with caches := c.caches.modify id.index ({ · with policies := [] }) }

end Cache

end RecordSeal
