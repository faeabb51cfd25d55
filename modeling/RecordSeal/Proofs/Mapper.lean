import RecordSeal.Mapper
import RecordSeal.Proofs.Hooks
import RecordSeal.Proofs.Store

set_option autoImplicit false

/-! # What mappers do to a session

A mapper stands in a session if its store serves it and the catalog answers as it did in the
beginning (`Mapper.Stands`). Every operation of a mapper keeps it standing. Saving changes one
document or fails and changes none, loading is a function of the document it finds, and deleting
removes one. -/

namespace RecordSeal

namespace Session

variable {α : Type} {σ σ' : Session} {id : StoreId}

/-- The documents of a table as a store sees them. -/
def documents (σ : Session) (id : StoreId) (table : Name) : Assoc Name Document :=
  (σ.serverAt (σ.storeAt id).server).documents table

/-- Whether a store is there, with a server that is obliging. -/
structure Serves (σ : Session) (id : StoreId) : Prop where
  store : id.index < σ.stores.length
  server : (σ.storeAt id).server.index < σ.servers.length
  obliging : (σ.serverAt (σ.storeAt id).server).Obliging

theorem Follows.storeAt (h : σ.Follows σ') (id : StoreId) : σ'.storeAt id = σ.storeAt id := by
  rw [Session.storeAt, h.stores, Session.storeAt]

theorem Follows.serverAt (h : σ.Follows σ') (id : ServerId) : σ'.serverAt id = σ.serverAt id := by
  rw [Session.serverAt, h.servers, Session.serverAt]

theorem Follows.documents (h : σ.Follows σ') (id : StoreId) (table : Name) :
    σ'.documents id table = σ.documents id table := by
  rw [Session.documents, Session.documents, h.storeAt, h.serverAt]

/-- Whether a store is there with its server. -/
structure Holds (σ : Session) (id : StoreId) : Prop where
  store : id.index < σ.stores.length
  server : (σ.storeAt id).server.index < σ.servers.length

theorem Holds.follows (present : σ.Holds id) (h : σ.Follows σ') : σ'.Holds id := by
  refine ⟨?_, ?_⟩
  · rw [h.stores]
    exact present.store
  · rw [h.storeAt, h.servers]
    exact present.server

theorem Follows.serves (h : σ.Follows σ') (serves : σ.Serves id) : σ'.Serves id := by
  refine ⟨?_, ?_, ?_⟩
  · rw [h.stores]
    exact serves.store
  · rw [h.storeAt, h.servers]
    exact serves.server
  · rw [h.storeAt, h.serverAt]
    exact serves.obliging

theorem Serves.holds (h : σ.Serves id) : σ.Holds id := ⟨h.store, h.server⟩

/-- The session after something was done through a store. -/
def reconnected (σ : Session) (id : StoreId) (c : Connection) : Session :=
  { σ with
    servers := σ.servers.set (σ.storeAt id).server.index c.server
    stores := σ.stores.set id.index { σ.storeAt id with tables := c.tables } }

theorem exec_onStore_eq (σ : Session) (id : StoreId) (act : Act Connection α) (log : Log)
    {answer : Except Failure α} {c' : Connection} {log' : Log}
    (ran : act.exec ⟨σ.serverAt (σ.storeAt id).server, (σ.storeAt id).tables⟩ log =
      (answer, c', log')) :
    (onStore id act).exec σ log = (answer, σ.reconnected id c', log') := by
  rw [onStore, Act.exec_on, ran]
  rfl

theorem storeAt_reconnected (h : σ.Holds id) (c : Connection) :
    (σ.reconnected id c).storeAt id = { σ.storeAt id with tables := c.tables } := by
  simp [reconnected, storeAt, List.getD_eq_getElem?_getD, h.store]

theorem serverAt_reconnected (h : σ.Holds id) (c : Connection) :
    (σ.reconnected id c).serverAt ((σ.reconnected id c).storeAt id).server = c.server := by
  rw [storeAt_reconnected h]
  simp [reconnected, serverAt, List.getD_eq_getElem?_getD, h.server]

/-- What is done through a store changes its documents and nothing else that is asked for. -/
theorem exec_onStore {act : Act Connection α} (serves : σ.Serves id) {log : Log}
    {answer : Except Failure α} {documents : Name → Assoc Name Document}
    (h : ∃ c' log', c'.server.Obliging ∧ (∀ n, c'.server.documents n = documents n) ∧
      act.exec ⟨σ.serverAt (σ.storeAt id).server, (σ.storeAt id).tables⟩ log =
        (answer, c', log')) :
    ∃ σ' log', σ'.Serves id ∧ σ'.catalog = σ.catalog ∧ (∀ n, σ'.documents id n = documents n) ∧
      (onStore id act).exec σ log = (answer, σ', log') := by
  obtain ⟨c', log', obliging, same, ran⟩ := h
  have server := serverAt_reconnected serves.holds c'
  refine ⟨σ.reconnected id c', log', ⟨?_, ?_, ?_⟩, rfl, ?_, exec_onStore_eq σ id act log ran⟩
  · simpa [reconnected] using serves.store
  · rw [storeAt_reconnected serves.holds]
    simpa [reconnected] using serves.server
  · rw [server]
    exact obliging
  · intro n
    rw [Session.documents, server, same]

/-- What was put through a store is found among the documents of its server. -/
theorem get?_of_put (present : σ.Holds id) {now : Timestamp} {table : Value} {key : String}
    {record : Record} {log log' : Log}
    (h : (onStore id (Store.put now table (.text key) record)).exec σ log = (.ok (), σ', log')) :
    ∃ name, table.toName = .ok name ∧
      (σ'.documents id name).get? (.text key) = some ⟨now.text, record⟩ := by
  have eq := exec_onStore_eq σ id (Store.put now table (.text key) record) log rfl
  rw [h, Prod.mk.injEq, Prod.mk.injEq] at eq
  obtain ⟨answer, rfl, -⟩ := eq
  obtain ⟨name, named, found⟩ := Store.get?_of_put (Prod.ext answer.symm rfl)
  refine ⟨name, named, ?_⟩
  rw [documents, serverAt_reconnected present]
  exact found

end Session

namespace Mapper

variable {m : Mapper} {s : Sealer} {signature description : Name} {c : Catalog}
  {σ σ' : Session}

/-- Whether a mapper works in a session whose catalog answers as a given one. -/
structure Stands (m : Mapper) (c : Catalog) (σ : Session) : Prop where
  catalog : c.Agrees σ.catalog
  serves : σ.Serves m.store

theorem Stands.follows (h : m.Stands c σ) (follows : σ.Follows σ') : m.Stands c σ' :=
  ⟨h.catalog.trans follows.catalog, follows.serves h.serves⟩

/-- The table of a type. -/
def tableOf (m : Mapper) (c : Catalog) (model : ModelId) : Value :=
  (c.registryAt m.registry).tableName c.forest model

/-- The stored names of the keys of a type. -/
def keyNamesOf (m : Mapper) (c : Catalog) (model : ModelId) : Except Failure (Value × Value) :=
  ((c.registryAt m.registry).mappingsOf c.forest model).map Registry.keyNamesOf

/-- The parameters of a record of a type. -/
def transformOf (m : Mapper) (c : Catalog) (model : ModelId) (record : Record) (isPartial : Bool) :
    Except Failure Transform :=
  match m.keyNamesOf c model with
  | .error why => .error why
  | .ok (hashKey, rangeKey) =>
    if hashKey.isNull then .error (.refused (.noHashKey (c.forest.typeAt model).name))
    else .ok { model, table := m.tableOf c model, hashKey, rangeKey, record, isPartial }

theorem tableOf_agrees {c' : Catalog} (h : c.Agrees c') (model : ModelId) :
    m.tableOf c' model = m.tableOf c model :=
  h.tableName m.registry model

theorem keyNamesOf_agrees {c' : Catalog} (h : c.Agrees c') (model : ModelId) :
    m.keyNamesOf c' model = m.keyNamesOf c model := by
  rw [keyNamesOf, keyNamesOf, h.forest, (h.registries m.registry).mappings]

theorem exec_table (agrees : c.Agrees σ.catalog) (model : ModelId) (log : Log) :
    (m.table model).exec σ log = (.ok (m.tableOf c model), σ, log) := by
  rw [← tableOf_agrees agrees]
  rfl

/-- The key names of a type as a mapper asks for them. -/
theorem exec_keyNames (agrees : c.Agrees σ.catalog) (model : ModelId) (log : Log) :
    ∃ σ' log', σ.Follows σ' ∧
      (Session.onCatalog (Catalog.onRegistry m.registry
        (Registry.keyNames σ.catalog.forest model))).exec σ log =
      (m.keyNamesOf c model, σ', log') := by
  rw [← keyNamesOf_agrees agrees]
  obtain ⟨c', agrees', ran⟩ := Catalog.exec_onRegistry
    (Registry.exec_keyNames σ.catalog.forest model (σ.catalog.registryAt m.registry) log)
  obtain ⟨σ', log', follows, -, asked⟩ := Session.exec_onCatalog ⟨c', log, agrees', ran⟩
  exact ⟨σ', log', follows, asked⟩

theorem exec_transform (agrees : c.Agrees σ.catalog) (model : ModelId) (record : Record)
    (isPartial : Bool) (log : Log) :
    ∃ σ' log', σ.Follows σ' ∧ (m.transform model record isPartial).exec σ log =
      (m.transformOf c model record isPartial, σ', log') := by
  obtain ⟨σ₁, log₁, follows, asked⟩ := exec_keyNames agrees model log
  refine ⟨σ₁, log₁, follows, ?_⟩
  unfold transform transformOf
  rw [Act.exec_bind, Act.exec_get]
  dsimp only
  rw [Act.exec_bind, asked]
  cases m.keyNamesOf c model with
  | error why => rfl
  | ok keys =>
    obtain ⟨hashKey, rangeKey⟩ := keys
    dsimp only
    by_cases missing : hashKey.isNull = true
    · rw [if_pos missing, if_pos missing, Act.exec_bind, Act.exec_fail, agrees.forest]
    · rw [if_neg missing, if_neg missing, ← tableOf_agrees (agrees.trans follows.catalog)]
      rfl

/-- The instance that is made of a stored record of a type. -/
def opened (m : Mapper) (s : Sealer) (reserved : List Name) (c : Catalog) (model : ModelId)
    (stored : Record) : Except Failure Instance := do
  let t ← m.transformOf c model stored false
  let record ← m.hooks.decoded s t c reserved
  c.forest.validate model record

/-- A stored record of a type is opened by its transform, the hooks and validation. -/
theorem exec_opened (stands : m.Stands c σ) (seals : m.hooks.encryptor = .sealer s)
    (names : s.Reserves signature description) (model : ModelId) (stored : Record) (log : Log) :
    ∃ σ' log', σ.Follows σ' ∧
      (do
        let t ← m.transform model stored false
        let record ← m.hooks.decode t
        let forest := (← (get : Act Session Session)).catalog.forest
        Act.ofExcept (forest.validate model record)).exec σ log =
      (m.opened s [signature, description] c model stored, σ', log') := by
  obtain ⟨σ₁, log₁, follows₁, transformed⟩ := exec_transform stands.catalog model stored false log
  unfold opened
  rw [Act.exec_bind, transformed]
  cases m.transformOf c model stored false with
  | error why => exact ⟨σ₁, log₁, follows₁, rfl⟩
  | ok t =>
    obtain ⟨σ₂, log₂, follows₂, decoded⟩ := m.hooks.exec_decode t log₁ seals names
    have follows := follows₁.trans follows₂
    refine ⟨σ₂, log₂, follows, ?_⟩
    dsimp only
    rw [Act.exec_bind, decoded, m.hooks.decoded_agrees t (stands.follows follows₁).catalog]
    show _ = ((m.hooks.decoded s t c [signature, description]).bind _, σ₂, log₂)
    cases m.hooks.decoded s t c [signature, description] with
    | error why => rfl
    | ok record =>
      dsimp only
      rw [Act.exec_bind, Act.exec_get]
      dsimp only
      rw [Act.exec_ofExcept, (stands.follows follows).catalog.forest]
      rfl

/-- Whether a record is what a mapper would store of an instance under a key, at some time and with
some random bytes. -/
def Stores (m : Mapper) (s : Sealer) (c : Catalog) (given : Instance) (isPartial : Bool)
    (key : String) (stored : Record) : Prop :=
  ∃ dumped t σ, given.dump (c.forest.typeAt given.model) isPartial = .ok dumped ∧
    m.transformOf c given.model dumped isPartial = .ok t ∧ keyOf t = .ok key ∧
    c.Agrees σ.catalog ∧ m.hooks.encoded s t σ = .ok stored

theorem transformOf_eq_ok {model : ModelId} {record : Record} {isPartial : Bool} {t : Transform}
    (h : m.transformOf c model record isPartial = .ok t) :
    ∃ hashKey rangeKey, m.keyNamesOf c model = .ok (hashKey, rangeKey) ∧ hashKey.isNull = false ∧
      t = ⟨model, m.tableOf c model, hashKey, rangeKey, record, isPartial⟩ := by
  rw [transformOf] at h
  split at h
  · cases h
  · next hashKey rangeKey names =>
    split at h
    · cases h
    · next present =>
      cases h
      exact ⟨hashKey, rangeKey, names, Bool.eq_false_of_not_eq_true present, rfl⟩

theorem exec_onStore (stands : m.Stands c σ) {α : Type} {act : Act Connection α} {log : Log}
    {answer : Except Failure α} {documents : Name → Assoc Name Document}
    (h : ∃ c' log', c'.server.Obliging ∧ (∀ n, c'.server.documents n = documents n) ∧
      act.exec ⟨σ.serverAt (σ.storeAt m.store).server, (σ.storeAt m.store).tables⟩ log =
        (answer, c', log')) :
    ∃ σ' log', m.Stands c σ' ∧ (∀ n, σ'.documents m.store n = documents n) ∧
      (Session.onStore m.store act).exec σ log = (answer, σ', log') := by
  obtain ⟨σ', log', serves, catalog, same, ran⟩ := Session.exec_onStore stands.serves h
  exact ⟨σ', log', ⟨catalog ▸ stands.catalog, serves⟩, same, ran⟩

variable {model : ModelId} {table : Name} (named : (m.tableOf c model).toName = .ok table)
  (stands : m.Stands c σ) (log : Log)

include named stands

/-- Loading opens the document under the key, or reports that there is none. -/
theorem exec_load (seals : m.hooks.encryptor = .sealer s)
    (names : s.Reserves signature description) (hashValue rangeValue : Value) :
    ∃ σ' log', m.Stands c σ' ∧
      (∀ n, σ'.documents m.store n = σ.documents m.store n) ∧
      (m.load model hashValue rangeValue).exec σ log =
        (match (σ.documents m.store table).get? (.text (documentKey hashValue rangeValue)) with
          | some d => m.opened s [signature, description] c model d.record
          | none => .error (.refused (.notFound (documentKey hashValue rangeValue) table.shown)),
          σ', log') := by
  obtain ⟨σ₁, log₁, stands₁, same, fetched⟩ := exec_onStore stands
    (Store.exec_fetch named stands.serves.obliging log (documentKey hashValue rangeValue))
  unfold load
  rw [Act.exec_bind, exec_table stands.catalog]
  dsimp only
  rw [Act.exec_bind, fetched, Session.documents]
  cases Assoc.get? (Server.documents _ table) _ with
  | none => exact ⟨σ₁, log₁, stands₁, same, rfl⟩
  | some d =>
    obtain ⟨σ₂, log₂, follows, opened⟩ := exec_opened stands₁ seals names model d.record log₁
    refine ⟨σ₂, log₂, stands₁.follows follows, ?_, opened⟩
    intro n
    exact (follows.documents m.store n).trans (same n)

/-- Deleting removes the document under the key. -/
theorem exec_delete (hashValue rangeValue : Value) :
    ∃ σ' log', m.Stands c σ' ∧
      (∀ n, σ'.documents m.store n =
        if table == n then
          (σ.documents m.store table).erase (.text (documentKey hashValue rangeValue))
        else σ.documents m.store n) ∧
      (m.delete model hashValue rangeValue).exec σ log = (.ok (), σ', log') := by
  obtain ⟨σ₁, log₁, stands₁, same, deleted⟩ := exec_onStore stands
    (Store.exec_delete named stands.serves.obliging log (documentKey hashValue rangeValue))
  refine ⟨σ₁, log₁, stands₁, same, ?_⟩
  unfold delete
  rw [Act.exec_bind, exec_table stands.catalog]
  exact deleted

omit named in
/-- An encoded record is put under its key, at the time of the session. -/
theorem exec_put {name : Value} (named : name.toName = .ok table) (key message : String)
    (stored : Record) :
    ∃ σ' log', m.Stands c σ' ∧
      (∀ n, σ'.documents m.store n =
        if table == n then
          (σ.documents m.store table).insert (.text key) ⟨σ.around.now.text, stored⟩
        else σ.documents m.store n) ∧
      (do
        let now := (← (get : Act Session Session)).around.now
        Session.onStore m.store (Store.put now name (.text key) stored)
        Act.note .debug source message
        pure key).exec σ log = (.ok key, σ', log') := by
  obtain ⟨σ₁, log₁, stands₁, changed, put⟩ := exec_onStore stands
    (Store.exec_put named stands.serves.obliging log σ.around.now key stored)
  refine ⟨σ₁, log₁.add ⟨.debug, source, message⟩, stands₁, changed, ?_⟩
  rw [Act.exec_bind, Act.exec_get]
  dsimp only
  rw [Act.exec_bind, put]
  rfl

omit named stands in
/-- Saving fails before the store is asked, or ends with putting a record under its key. -/
theorem exec_save_cases (agrees : c.Agrees σ.catalog) (seals : m.hooks.encryptor = .sealer s)
    (given : Instance) (isPartial : Bool) :
    ∃ σ' log', σ.Follows σ' ∧
      ((∃ why, (m.save given isPartial).exec σ log = (.error why, σ', log')) ∨
        ∃ key message stored, m.Stores s c given isPartial key stored ∧
          (m.save given isPartial).exec σ log = (do
            let now := (← (get : Act Session Session)).around.now
            Session.onStore m.store (Store.put now (m.tableOf c given.model) (.text key) stored)
            Act.note .debug source message
            pure key).exec σ' log') := by
  unfold save
  rw [Act.exec_bind, Act.exec_get]
  dsimp only
  rw [agrees.forest, Act.exec_bind, Act.exec_ofExcept]
  cases dumped : given.dump (c.forest.typeAt given.model) isPartial with
  | error why => exact ⟨σ, log, ⟨.refl _, rfl, rfl⟩, .inl ⟨why, rfl⟩⟩
  | ok record =>
    dsimp only
    obtain ⟨σ₁, log₁, follows₁, transformed⟩ :=
      exec_transform agrees given.model record isPartial log
    rw [Act.exec_bind, transformed]
    cases parameters : m.transformOf c given.model record isPartial with
    | error why => exact ⟨σ₁, log₁, follows₁, .inl ⟨why, rfl⟩⟩
    | ok t =>
      dsimp only
      rw [Act.exec_bind, Act.exec_ofExcept]
      cases keyed : keyOf t with
      | error why => exact ⟨σ₁, log₁, follows₁, .inl ⟨why, rfl⟩⟩
      | ok key =>
        dsimp only
        obtain ⟨σ₂, log₂, follows₂, encoded⟩ := m.hooks.exec_encode t log₁ seals
        have follows := follows₁.trans follows₂
        rw [Act.exec_bind, encoded]
        cases made : m.hooks.encoded s t σ₁ with
        | error why => exact ⟨σ₂, log₂, follows, .inl ⟨why, rfl⟩⟩
        | ok stored =>
          obtain ⟨hashKey, rangeKey, -, -, rfl⟩ := transformOf_eq_ok parameters
          exact ⟨σ₂, log₂, follows, .inr ⟨key, _, stored, ⟨record, _, σ₁, dumped, parameters, keyed,
            agrees.trans follows₁.catalog, made⟩, rfl⟩⟩

/-- Saving fails and changes no document, or stores a record under the key that it gives. -/
theorem exec_save (seals : m.hooks.encryptor = .sealer s) {given : Instance}
    (own : given.model = model) (isPartial : Bool) :
    ∃ result σ' log', m.Stands c σ' ∧ (m.save given isPartial).exec σ log = (result, σ', log') ∧
      match result with
      | .error _ => ∀ n, σ'.documents m.store n = σ.documents m.store n
      | .ok key => ∃ d : Document, m.Stores s c given isPartial key d.record ∧
        ∀ n, σ'.documents m.store n =
          if table == n then (σ.documents m.store table).insert (.text key) d
          else σ.documents m.store n := by
  subst own
  obtain ⟨σ₁, log₁, follows, ⟨why, failed⟩ | ⟨key, message, stored, stores, ran⟩⟩ :=
    exec_save_cases log stands.catalog seals given isPartial
  · exact ⟨_, σ₁, log₁, stands.follows follows, failed, follows.documents m.store⟩
  · obtain ⟨σ₂, log₂, stands₂, changed, put⟩ :=
      exec_put (stands.follows follows) log₁ named key message stored
    refine ⟨.ok key, σ₂, log₂, stands₂, ran.trans put, ⟨σ₁.around.now.text, stored⟩, stores, ?_⟩
    intro n
    rw [changed, follows.documents, follows.documents]

omit named stands in
/-- Whatever the server answers: what a save that succeeds has stored is found under the key that it
gives. -/
theorem exists_document_of_save (agrees : c.Agrees σ.catalog) (present : σ.Holds m.store)
    (seals : m.hooks.encryptor = .sealer s) {given : Instance} {isPartial : Bool} {key : String}
    {log' : Log} (ran : (m.save given isPartial).exec σ log = (.ok key, σ', log')) :
    ∃ table d, (m.tableOf c given.model).toName = .ok table ∧
      m.Stores s c given isPartial key d.record ∧
      (σ'.documents m.store table).get? (.text key) = some d := by
  obtain ⟨σ₁, log₁, follows, ⟨why, failed⟩ | ⟨key', message, stored, stores, saved⟩⟩ :=
    exec_save_cases log agrees seals given isPartial
  · cases failed.symm.trans ran
  rw [saved] at ran
  obtain ⟨σ₂, _, _, asked, ran⟩ := Act.exec_bind_eq_ok ran
  cases asked
  obtain ⟨_, σ₃, log₃, put, ran⟩ := Act.exec_bind_eq_ok ran
  cases ran
  obtain ⟨table, named, found⟩ := Session.get?_of_put (present.follows follows) put
  exact ⟨table, _, named, stores, found⟩

end Mapper

end RecordSeal
