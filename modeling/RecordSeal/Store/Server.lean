import RecordSeal.Clock
import RecordSeal.Failure
import RecordSeal.Value

set_option autoImplicit false

/-! # Document servers

A server holds collections of documents by key. It may refuse connections, and it may be told what
successive look-ups and creations of collections answer. It remembers the calls made to it. -/

namespace RecordSeal

/-- A stored document. -/
structure Document where
  storedAt : String
  record : Record

/-- What creating a collection does. -/
inductive CreateOutcome where
  | created
  /-- Somebody else creates it first: it is there, and the call fails. -/
  | race
  | refused
  deriving DecidableEq

/-- A call made to a server. -/
inductive ServerCall where
  | connect (name username password : Value)
  | hasCollection (table : Name)
  | createCollection (table : Name)
  | insert (table key : Name)
  | get (table key : Name)
  | delete (table key : Name)
  | close

/-- A document server. -/
structure Server where
  /-- Why connections are refused, if they are. -/
  refusal : Option String := none
  /-- What the next creations do; after that they succeed. -/
  creations : List CreateOutcome := []
  /-- What the next look-ups of collections answer; after that the truth. -/
  lookups : List Bool := []
  collections : Assoc Name (Assoc Name Document) := []
  calls : List ServerCall := []

namespace Server

/-- Remembers a call. -/
def record (s : Server) (call : ServerCall) : Server := { s with calls := s.calls ++ [call] }

/-- The documents of a collection; a missing collection has none. -/
def documents (s : Server) (table : Name) : Assoc Name Document :=
  (s.collections.get? table).getD []

/-- Makes sure that a collection is there. -/
def withCollection (s : Server) (table : Name) : Server :=
  if s.collections.contains table then s
  else { s with collections := s.collections.insert table [] }

/-- Whether a collection is there, as the server answers. -/
def hasCollection (s : Server) (table : Name) : Bool × Server :=
  let s := s.record (.hasCollection table)
  match s.lookups with
  | answer :: rest => (answer, { s with lookups := rest })
  | [] => (s.collections.contains table, s)

/-- Creates a collection, as far as the server lets it. -/
def createCollection (s : Server) (table : Name) : Except Failure Unit × Server :=
  let s := s.record (.createCollection table)
  let outcome := s.creations.headD .created
  let s := { s with creations := s.creations.tail }
  match outcome with
  | .created => (.ok (), s.withCollection table)
  | .race => (.error .collectionExists, s.withCollection table)
  | .refused => (.error .collectionExists, s)

/-- Stores a document under a key, in place of any other. -/
def insert (s : Server) (table key : Name) (d : Document) : Server :=
  let s := s.record (.insert table key)
  { s with collections := s.collections.insert table ((s.documents table).insert key d) }

/-- The document under a key. -/
def get (s : Server) (table key : Name) : Option Document × Server :=
  let s := (s.record (.get table key)).withCollection table
  ((s.documents table).get? key, s)

/-- Removes the document under a key, if there is one. -/
def delete (s : Server) (table key : Name) : Server :=
  let s := s.record (.delete table key)
  { s with collections := s.collections.insert table ((s.documents table).erase key) }

/-- Changes the key of a document. -/
def rename (s : Server) (table key other : Name) : Server :=
  match (s.documents table).get? key with
  | some d =>
    let documents := ((s.documents table).erase key).insert other d
    { s with collections := s.collections.insert table documents }
  | none => s

/-- Changes the record of a document. -/
def revise (s : Server) (table key : Name) (f : Record → Record) : Server :=
  match (s.documents table).get? key with
  | some d =>
    let documents := (s.documents table).insert key { d with record := f d.record }
    { s with collections := s.collections.insert table documents }
  | none => s

end Server

end RecordSeal
