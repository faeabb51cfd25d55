import RecordSeal.Hooks
import RecordSeal.Model.Instance

set_option autoImplicit false

/-! # Mappers

A mapper saves and loads instances: it turns an instance into a record, lets the hooks transform
it once, and keeps it in a store under a document key made of its hash and range values. -/

namespace RecordSeal

/-- Hooks, a store, and the registry that names keys and tables. -/
structure Mapper where
  hooks : Hooks
  store : StoreId
  registry : RegistryId

namespace Mapper

/-- The name under which mappers log. -/
def source : String := "fieldseal.mapper"

/-- Makes a mapper; without a store it opens one of its own. -/
def create (hooks : Hooks) (store : Option StoreId) (registry : Option RegistryId) :
    Act Session Mapper := do
  let store ← match store with
    | some id => pure id
    | none => Session.openStore none
  pure { hooks, store, registry := registry.getD Catalog.sharedRegistry }

/-- The document key of hash and range values; a range value of null is none. -/
def documentKey (hashValue rangeValue : Value) : String :=
  match rangeValue with
  | .null => hashValue.shown
  | v => s!"{hashValue.shown}:{v.shown}"

/-- The table of a type. -/
def table (m : Mapper) (model : ModelId) : Act Session Value := do
  let c := (← get).catalog
  pure ((c.registryAt m.registry).tableName c.forest model)

/-- The transform of a record of a type, which must have a hash key. -/
def transform (m : Mapper) (model : ModelId) (record : Record) (isPartial : Bool) :
    Act Session Transform := do
  let forest := (← get).catalog.forest
  let (hashKey, rangeKey) ← Session.onCatalog
    (Catalog.onRegistry m.registry (Registry.keyNames forest model))
  if hashKey.isNull then Act.fail (.refused (.noHashKey (forest.typeAt model).name))
  pure { model, table := ← m.table model, hashKey, rangeKey, record, isPartial }

/-- The value of a record under a name; null if there is none. -/
def valueUnder (record : Record) (name : Value) : Except Failure Value := do
  pure ((record.get? (← name.toName)).getD .null)

/-- The range value of a record; a name that does not count as given names none. -/
def rangeValue (record : Record) (name : Value) : Except Failure Value :=
  if name.isGiven then valueUnder record name else .ok .null

/-- The document key of a record under the key names of its transform. -/
def keyOf (t : Transform) : Except Failure String := do
  let hashValue ← valueUnder t.record t.hashKey
  pure (documentKey hashValue (← rangeValue t.record t.rangeKey))

/-- Saves an instance and gives its document key. -/
def save (m : Mapper) (given : Instance) (isPartial : Bool) : Act Session String := do
  let type := (← get).catalog.forest.typeAt given.model
  let record ← Act.ofExcept (given.dump type isPartial)
  let t ← m.transform given.model record isPartial
  let key ← Act.ofExcept (keyOf t)
  let stored ← m.hooks.encode t
  let now := (← get).around.now
  Session.onStore m.store (Store.put now t.table (.text key) stored)
  Act.note .debug source s!"Saved {type.name} {key}"
  pure key

/-- Loads the instance of a type under hash and range values. -/
def load (m : Mapper) (model : ModelId) (hashValue rangeValue : Value) :
    Act Session Instance := do
  let table ← m.table model
  let stored ← Session.onStore m.store
    (Store.fetch table (.text (documentKey hashValue rangeValue)))
  let t ← m.transform model stored false
  let record ← m.hooks.decode t
  let forest := (← get).catalog.forest
  Act.ofExcept (forest.validate model record)

/-- Deletes the document under hash and range values, if there is one. -/
def delete (m : Mapper) (model : ModelId) (hashValue rangeValue : Value) : Act Session Unit := do
  let table ← m.table model
  Session.onStore m.store
    (Store.delete table (.text (documentKey hashValue rangeValue)))

end Mapper

end RecordSeal
