import RecordSeal.Clock
import RecordSeal.Crypto.Hmac
import RecordSeal.Seal.Attribute
import RecordSeal.Seal.Limits
import RecordSeal.Seal.Payload

set_option autoImplicit false

/-! # Sealing records

`Sealer.sealRecord` encrypts the attributes that the policies flag, adds a description of the key
material and a signature over what is signed. `Sealer.openRecord` verifies the signature before it
decrypts anything. Every record has a salt of its own, from which both keys are derived. -/

namespace RecordSeal

/-- What it takes to seal records: the master key, the number of iterations of the key derivation,
the names of the attributes that hold the signature and the description, and the limits. -/
structure Sealer where
  masterKey : Value
  algorithm : Algorithm
  iterations : Int
  signatureName : Value
  descriptionName : Value
  limits : Sealer.Limits := .standard

namespace Sealer

/-! ## Keys -/

/-- The number of bytes of a salt. -/
def saltSize : Nat := 16

/-- The number of iterations, if the derivation takes it. -/
def checkedIterations (s : Sealer) : Except Failure Nat :=
  if s.iterations < 0 then .error (.exceeded .negative)
  else if s.limits.iterations ≤ s.iterations then .error (.exceeded .tooLarge)
  else if s.iterations = 0 then .error (.refused .noIterations)
  else .ok s.iterations.toNat

/-- The encryption key and the signing key of a record with the given salt. -/
def deriveKeys (s : Sealer) (salt : List UInt8) : Except Failure (List UInt8 × List UInt8) := do
  let n ← s.checkedIterations
  let bytes := Crypto.Hmac.stretch (← s.masterKey.encoded) salt n 64
  pure (bytes.take 32, bytes.drop 32)

/-! ## Sealing -/

/-- Encrypts the flagged attributes that the record has, in the order of the policies, each under
a nonce of its own. -/
def encryptAttributes (lim : Json.Limits) (key : List UInt8) :
    FieldPolicies → Record → Entropy → Except Failure Record × Entropy
  | [], record, e => (.ok record, e)
  | (name, flags) :: rest, record, e =>
    if flags.encrypt then
      match record.get? name with
      | none => encryptAttributes lim key rest record e
      | some v =>
        match v.json lim Json.spaced with
        | .error why => (.error why, e)
        | .ok json =>
          match (Value.ofName name).encoded with
          | .error why => (.error why, e.skip nonceSize)
          | .ok label =>
            let sealedValue := encryptText key (e.next nonceSize) label json
            encryptAttributes lim key rest (record.insert name (.text sealedValue))
              (e.skip nonceSize)
    else encryptAttributes lim key rest record e

/-- The signature of a record under a key. -/
def signature (lim : Json.Limits) (key : List UInt8) (record : Record) (policies : FieldPolicies)
    (context : Context) (description : Value) : Except Failure (List UInt8) :=
  (signingPayload lim record policies context description).map (Crypto.Hmac.mac key)

/-- Adds the description and then the signature to a record whose attributes are encrypted. -/
def sign (s : Sealer) (key : List UInt8) (record : Record) (policies : FieldPolicies)
    (context : Context) (description : Value) : Except Failure Record := do
  let described := record.insert (← s.descriptionName.toName) description
  let code ← signature s.limits.signing key described policies context description
  pure (described.insert (← s.signatureName.toName) (.text (Base64.encodeText code)))

/-- The description of a record sealed now with a salt. -/
def describe (s : Sealer) (now : Timestamp) (salt : List UInt8) : Value :=
  .text <| String.ofList <| MaterialDescription.text
    { algorithm := s.algorithm, salt := .text (Base64.encodeText salt),
      createdAt := .text now.text }

/-- Seals a record. The salt is taken first and stays taken if sealing fails. -/
def sealRecord (s : Sealer) (now : Timestamp) (record : Record) (policies : FieldPolicies)
    (context : Context) (e : Entropy) : Except Failure Record × Entropy :=
  let salt := e.next saltSize
  let e := e.skip saltSize
  -- The random bytes are gone even where a failure follows.
  match s.deriveKeys salt with
  | .error why => (.error why, e)
  | .ok (encryptionKey, signingKey) =>
    match encryptAttributes s.limits.encrypting encryptionKey policies record e with
    | (.error why, e) => (.error why, e)
    | (.ok encrypted, e) =>
      (s.sign signingKey encrypted policies context (s.describe now salt), e)

/-! ## Opening -/

/-- Reads base64 text or bytes, leniently. -/
def readBase64 : Value → Except Failure (List UInt8)
  | .text t => (Base64.decode false t.toList).mapError Failure.malformedBase64
  | .brokenText _ => .error (.malformedBase64 .notAscii)
  | .bytes bs => (Base64.decodeBytes bs).mapError Failure.malformedBase64
  | v => .error (.mismatched (.notBase64Text v.kindName))

/-- The salt that a description gives and the signature that a record gives. -/
def readSeal (lim : Json.Limits) (description signature : Value) :
    Except Failure (List UInt8 × List UInt8) := do
  let d ← MaterialDescription.ofValue (← description.readJson lim)
  let salt ← readBase64 d.salt
  pure (salt, ← readBase64 signature)

/-- Decrypts the flagged attributes that the record has, in the order of the policies. -/
def decryptAttributes (lim : Json.Limits) (key : List UInt8) :
    FieldPolicies → Record → Except Failure Record
  | [], record => .ok record
  | (name, flags) :: rest, record =>
    if flags.encrypt then
      match record.get? name with
      | none => decryptAttributes lim key rest record
      | some v => do
        decryptAttributes lim key rest (record.insert name (← decryptValue lim key name v))
    else decryptAttributes lim key rest record

/-- What a failure to read the seal of a record becomes: nesting that is too deep stays what it
is. -/
def asMalformed : Failure → Failure
  | .malformedJson (.tooDeep container) => .malformedJson (.tooDeep container)
  | why => .malformedDescription why

/-- Verifies a record under a description and a signature, then decrypts it. -/
def openSigned (s : Sealer) (record : Record) (policies : FieldPolicies) (context : Context)
    (names : Name × Name) (description given : Value) : Except Failure Record := do
  let (salt, given) ← (readSeal s.limits.describing description given).mapError asMalformed
  let (encryptionKey, signingKey) ← s.deriveKeys salt
  let code ← signature s.limits.verifying signingKey record policies context description
  -- Nothing is decrypted before the signature is known to be right.
  if code ≠ given then throw .wrongSignature
  decryptAttributes s.limits.decrypting encryptionKey policies
    ((record.erase names.1).erase names.2)

/-- Opens a stored record: verifies it, then decrypts it and drops the signature and the
description. A record without a signature is returned as it is if nothing was to be protected. -/
def openRecord (s : Sealer) (record : Record) (policies : FieldPolicies) (context : Context) :
    Except Failure Record := do
  let signatureName ← s.signatureName.toName
  match record.get? signatureName with
  | none => if policies.any fun e => e.2.isAny then throw .notSigned else pure record
  | some given =>
    let descriptionName ← s.descriptionName.toName
    match record.get? descriptionName with
    | none => throw .notSigned
    | some description =>
      s.openSigned record policies context (signatureName, descriptionName) description given

end Sealer

end RecordSeal
