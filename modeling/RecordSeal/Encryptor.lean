import RecordSeal.Classification
import RecordSeal.Seal.Sealer

set_option autoImplicit false

/-! # Encryptors

Hooks drive an encryptor: a sealer, or a rehearsal that writes down what it is asked, adds and
removes the two reserved attributes, and fails if it was told to. -/

namespace RecordSeal

/-- The parameters of one save or load. -/
structure Transform where
  model : ModelId
  table : Value
  /-- The stored name of the hash key; null for none. -/
  hashKey : Value
  /-- The stored name of the range key; null for none. -/
  rangeKey : Value
  record : Record
  /-- The write replaces only some attributes. -/
  isPartial : Bool := false

/-- What an encryptor is told beside the record and its policies. -/
structure EncryptionContext where
  /-- What the signature is bound to. -/
  binding : Context
  model : ModelId
  record : Record

/-- The context of a transform: the override of the type, if it has one, takes the place of the
table name. -/
def Transform.context (t : Transform) (override : Option Value) : EncryptionContext :=
  { binding := { table := override.getD t.table, hashKey := t.hashKey, rangeKey := t.rangeKey }
    model := t.model
    record := t.record }

/-- A call made to a rehearsal. -/
structure EncryptorCall where
  direction : Direction
  record : Record
  policies : FieldPolicies
  context : EncryptionContext

/-- An encryptor that only writes down what it is asked. -/
structure Rehearsal where
  signatureName : Name := .text "*sig*"
  descriptionName : Name := .text "*desc*"
  /-- The failure it ends every call with. -/
  failure : Option Failure := none
  calls : List EncryptorCall := []

namespace Rehearsal

/-- Writes down a call and fails if told to. -/
def take (r : Rehearsal) (call : EncryptorCall) : Except Failure Unit × Rehearsal :=
  let result := match r.failure with
    | some why => .error why
    | none => .ok ()
  (result, { r with calls := r.calls ++ [call] })

/-- What a rehearsal answers: the record with the reserved attributes added or removed. -/
def answer (r : Rehearsal) (direction : Direction) (record : Record) : Record :=
  match direction with
  | .encrypt =>
    (record.insert r.signatureName (.text "signature")).insert r.descriptionName (.text "\x7b\x7d")
  | .decrypt => (record.erase r.signatureName).erase r.descriptionName

end Rehearsal

/-- The place of a rehearsal. -/
structure RehearsalId where
  index : Nat
  deriving DecidableEq

/-- An encryptor. -/
inductive Encryptor where
  | sealer (s : Sealer)
  | rehearsal (id : RehearsalId)

/-- What encryptors change: the random bytes they take and the calls they write down. -/
structure Workshop where
  entropy : Entropy
  rehearsals : List Rehearsal := []

namespace Workshop

/-- The rehearsal at a place. -/
def rehearsalAt (w : Workshop) (id : RehearsalId) : Rehearsal := w.rehearsals.getD id.index {}

/-- Adds a rehearsal. -/
def addRehearsal (w : Workshop) (r : Rehearsal) : RehearsalId × Workshop :=
  (⟨w.rehearsals.length⟩, { w with rehearsals := w.rehearsals ++ [r] })

/-- Forgets the calls of a rehearsal. -/
def forgetCalls (w : Workshop) (id : RehearsalId) : Workshop :=
  { w with rehearsals := w.rehearsals.modify id.index ({ · with calls := [] }) }

end Workshop

namespace Encryptor

/-- The names of the attributes for the signature and the description. -/
def reservedNames (e : Encryptor) (w : Workshop) : Value × Value :=
  match e with
  | .sealer s => (s.signatureName, s.descriptionName)
  | .rehearsal id =>
    let r := w.rehearsalAt id
    (.ofName r.signatureName, .ofName r.descriptionName)

/-- Lets a rehearsal take a call. -/
def rehearse (id : RehearsalId) (call : EncryptorCall) : Act Workshop Record := do
  let w ← get
  let (result, r) := (w.rehearsalAt id).take call
  set { w with rehearsals := w.rehearsals.set id.index r }
  Act.ofExcept result
  pure (r.answer call.direction call.record)

/-- Seals a record, taking random bytes. -/
def sealWith (s : Sealer) (now : Timestamp) (record : Record) (policies : FieldPolicies)
    (context : Context) : Act Workshop Record := do
  let w ← get
  let (result, entropy) := s.sealRecord now record policies context w.entropy
  set { w with entropy }
  Act.ofExcept result

/-- Encrypts and signs a record. -/
def encrypt (e : Encryptor) (now : Timestamp) (record : Record) (policies : FieldPolicies)
    (context : EncryptionContext) : Act Workshop Record :=
  match e with
  | .sealer s => sealWith s now record policies context.binding
  | .rehearsal id => rehearse id { direction := .encrypt, record, policies, context }

/-- Verifies and decrypts a record. -/
def decrypt (e : Encryptor) (record : Record) (policies : FieldPolicies)
    (context : EncryptionContext) : Act Workshop Record :=
  match e with
  | .sealer s => Act.ofExcept (s.openRecord record policies context.binding)
  | .rehearsal id => rehearse id { direction := .decrypt, record, policies, context }

end Encryptor

end RecordSeal
