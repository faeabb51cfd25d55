import RecordSeal.Act
import RecordSeal.Policy
import RecordSeal.Settings.Load
import RecordSeal.Store.Server

set_option autoImplicit false

/-! # Record stores

A store keeps records as documents of a server, one collection for each table. It looks for a
collection once and creates it if it is missing; losing a race for its creation is no failure. -/

namespace RecordSeal

/-- The place of a server. -/
structure ServerId where
  index : Nat
  deriving DecidableEq

/-- A store: the server it is connected to and the tables it knows to be there. -/
structure Store where
  server : ServerId
  tables : List Name := []

/-- A server as one store sees it. -/
structure Connection where
  server : Server
  tables : List Name

namespace Store

/-- The name under which stores log. -/
def source : String := "fieldseal.db.arangodb"

/-- Does something on the server. -/
def onServer {α : Type} (f : Server → α × Server) : Act Connection α := do
  let c ← get
  let (a, server) := f c.server
  set { c with server }
  pure a

/-- Opens a connection with the credentials of the settings. -/
def connect (url : Value) (credentials : Settings.Credentials) : Act Server Unit := do
  let s ← get
  set (s.record (.connect credentials.database credentials.username credentials.password))
  match s.refusal with
  | none => pure ()
  | some text =>
    Act.note .critical source
      s!"Failed to connect to ArangoDB at {url.shown}: [HTTP 503][ERR 0] {text}"
    Act.fail (.exit 1)

/-- Makes sure that the collection of a table is there and gives its name. -/
def ensureTable (table : Value) : Act Connection Name := do
  let name ← Act.ofExcept table.toName
  if (← get).tables.contains name then return name
  if !(← onServer (·.hasCollection name)) then
    Act.note .info source s!"Creating collection: {name.shown}"
    match ← onServer (·.createCollection name) with
    | .ok () => pure ()
    | .error why =>
      -- A failure is harmless if somebody else has created the collection meanwhile.
      if !(← onServer (·.hasCollection name)) then Act.fail why
      Act.note .debug source s!"Collection {name.shown} already created: {why.message}"
  modify fun c => { c with tables := c.tables ++ [name] }
  return name

/-- Stores a record under a key. -/
def put (now : Timestamp) (table key : Value) (record : Record) : Act Connection Unit := do
  let name ← ensureTable table
  let key ← Act.ofExcept key.toName
  onServer fun s => ((), s.insert name key { storedAt := now.text, record })

/-- The record under a key. -/
def fetch (table key : Value) : Act Connection Record := do
  let name ← ensureTable table
  let key ← Act.ofExcept key.toName
  match ← onServer (·.get name key) with
  | some d => pure d.record
  | none => Act.fail (.refused (.notFound key.shown name.shown))

/-- Removes the record under a key, if there is one. -/
def delete (table key : Value) : Act Connection Unit := do
  let name ← ensureTable table
  let key ← Act.ofExcept key.toName
  onServer fun s => ((), s.delete name key)

/-- Closes the connection. -/
def close : Act Connection Unit := onServer fun s => ((), s.record .close)

end Store

end RecordSeal
