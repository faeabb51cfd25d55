import RecordSeal.Encryptor
import RecordSeal.Seal.Setup
import RecordSeal.Store.Client

set_option autoImplicit false

/-! # Sessions

A session holds everything that a running program shares: its surroundings, settings, model types
with their registries and caches, encryptors, servers and stores. The operations of the parts are
operations of the whole. -/

namespace RecordSeal

/-- Everything that a running program shares. -/
structure Session where
  around : Surroundings
  settings : Settings := {}
  catalog : Catalog := {}
  rehearsals : List Rehearsal := []
  servers : List Server := []
  stores : List Store := []
  /-- The addresses that servers were asked for by address. -/
  hosts : List Value := []
  /-- The latest server asked for by address. -/
  ownServer : Option ServerId := none
  /-- The names that the policy service was told to leave out. -/
  reserved : Option (Value × Value) := none

/-- The place of a store. -/
structure StoreId where
  index : Nat
  deriving DecidableEq

namespace Session

variable {α : Type}

/-- Does something with the settings. -/
def onSettings (act : Surroundings → Act Settings α) : Act Session α := do
  Act.on (·.settings) (fun settings s => { s with settings }) (act (← get).around)

/-- Does something with the model types, registries and caches. -/
def onCatalog (act : Act Catalog α) : Act Session α :=
  Act.on (·.catalog) (fun catalog s => { s with catalog }) act

/-- Does something with encryptors. -/
def onWorkshop (act : Act Workshop α) : Act Session α :=
  Act.on (fun s => { entropy := s.around.entropy, rehearsals := s.rehearsals })
    (fun w s => { s with around := { s.around with entropy := w.entropy },
                         rehearsals := w.rehearsals }) act

/-- What encryptors change in this session. -/
def workshop (s : Session) : Workshop := { entropy := s.around.entropy, rehearsals := s.rehearsals }

/-! ## Servers and stores -/

/-- The server at a place. -/
def serverAt (s : Session) (id : ServerId) : Server := s.servers.getD id.index {}

/-- The store at a place. -/
def storeAt (s : Session) (id : StoreId) : Store := s.stores.getD id.index { server := ⟨0⟩ }

/-- Adds a server. -/
def addServer (server : Server) : Act Session ServerId := do
  let s ← get
  set { s with servers := s.servers ++ [server] }
  pure ⟨s.servers.length⟩

/-- Does something with a server. -/
def onServer (id : ServerId) (act : Act Server α) : Act Session α :=
  Act.on (·.serverAt id) (fun server s => { s with servers := s.servers.set id.index server }) act

/-- Does something through a store. -/
def onStore (id : StoreId) (act : Act Connection α) : Act Session α :=
  Act.on
    (fun s =>
      let store := s.storeAt id
      { server := s.serverAt store.server, tables := store.tables })
    (fun c s =>
      let store := s.storeAt id
      { s with servers := s.servers.set store.server.index c.server,
               stores := s.stores.set id.index { store with tables := c.tables } }) act

/-- A new server for an address. -/
def askForServer (url : Value) : Act Session ServerId := do
  let id ← addServer {}
  modify fun s => { s with hosts := s.hosts ++ [url], ownServer := some id }
  pure id

/-- Opens a store on a server, or on a new one at the address of the settings. -/
def openStore (server : Option ServerId) : Act Session StoreId := do
  let credentials ← onSettings Settings.credentials
  let url ← onSettings Settings.databaseUrl
  let id ← match server with
    | some id => pure id
    | none => askForServer url
  onServer id (Store.connect url credentials)
  let s ← get
  set { s with stores := s.stores ++ [({ server := id } : Store)] }
  pure ⟨s.stores.length⟩

end Session

end RecordSeal
