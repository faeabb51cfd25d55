import RecordSeal.Session

set_option autoImplicit false

/-! # Hooks

A persistence layer calls `encode` once for every save and `decode` once for every load. Both take
the policy of the type from a cache and hand it, with the context, to the encryptor; exempt types
pass unchanged. Whatever the encryptor fails with is a mapping failure, unless it ends the
program. -/

namespace RecordSeal

/-- An encryptor with a cache of policies and the provider of overrides. -/
structure Hooks where
  encryptor : Encryptor
  cache : CacheId
  provider : Provider

namespace Hooks

/-- The name under which hooks log. -/
def source : String := "fieldseal.encryption.attribute_encryptor"

/-- Makes hooks. Without a cache they have a new one for their provider, without either the shared
one; without a provider they have that of their cache. -/
def create (encryptor : Encryptor) (provider : Option Provider) (cache : Option CacheId) :
    Act Session Hooks := do
  let cache ← match cache, provider with
    | some id, _ => pure id
    | none, none => pure Catalog.sharedCache
    | none, some p => Session.onCatalog (Catalog.newCache p)
  let own := ((← get).catalog.cacheAt cache).provider
  pure { encryptor, cache, provider := provider.getD own }

/-- The policy of a type. -/
def policy (h : Hooks) (model : ModelId) : Act Session ClassPolicy :=
  Session.onCatalog (Cache.policy h.cache model)

/-- The context of a transform. -/
def context (h : Hooks) (t : Transform) : Act Session EncryptionContext := do
  let c := (← get).catalog
  pure (t.context (h.provider.markers c t.model).tableOverride)

/-- Turns a failure of the encryptor into a mapping failure; what ends the program passes. -/
def asMapping (direction : Direction) (model : String) (why : Failure) : Failure :=
  if why.isExit then why else .mapping direction model why

/-- The name of the type of a transform. -/
def modelName (t : Transform) : Act Session String := do
  pure ((← get).catalog.forest.typeAt t.model).name

/-- Encrypts and signs a record on its way to the store. -/
def encode (h : Hooks) (t : Transform) : Act Session Record := do
  let policy ← h.policy t.model
  if policy.doNotTouch then return t.record
  let name ← modelName t
  -- A partial update is sealed all the same; its signature covers only what it holds.
  if t.isPartial then
    Act.note .error source
      (s!"Partial update of {name} with encryption enabled; this can corrupt " ++
        "signed and encrypted data. Save whole records instead.")
  let now := (← get).around.now
  Act.mapFailure (asMapping .encrypt name) do
    let context ← h.context t
    Session.onWorkshop (h.encryptor.encrypt now t.record policy.fields context)

/-- The policies for a record as it is stored: those of its type, extended to the attributes the
type does not declare, the reserved ones left out. -/
def effectivePolicies (h : Hooks) (t : Transform) : Act Session FieldPolicies := do
  let policy ← h.policy t.model
  if policy.doNotTouch then return policy.fields
  let (signature, description) := h.encryptor.reservedNames (← get).workshop
  let reserved ← Act.ofExcept (namesOf [signature, description])
  pure (policy.reconcile t.record.keys reserved)

/-- Verifies and decrypts a record on its way from the store. -/
def decode (h : Hooks) (t : Transform) : Act Session Record := do
  let policy ← h.policy t.model
  if policy.doNotTouch then return t.record
  let policies ← h.effectivePolicies t
  let name ← modelName t
  Act.mapFailure (asMapping .decrypt name) do
    let context ← h.context t
    Session.onWorkshop (h.encryptor.decrypt t.record policies context)

end Hooks

end RecordSeal
