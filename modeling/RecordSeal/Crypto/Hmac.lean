import RecordSeal.Crypto.Sha256

set_option autoImplicit false

/-! # Keyed hashing and key derivation

`Hmac.mac` authenticates a message under a key. `Hmac.stretch` derives as many bytes as asked
from a password and a salt by iterating it; the iteration works on words and on keys whose first
blocks have been hashed once. -/

namespace RecordSeal.Crypto.Hmac

open Sha256 (State)

/-- The states after the inner and the outer key block. -/
structure Key where
  inner : State
  outer : State

/-- A key as one block: longer keys are hashed, shorter ones filled with zeros. -/
def keyBlock (key : List UInt8) : List UInt8 :=
  let short := if 64 < key.length then Sha256.hash key else key
  short ++ List.replicate (64 - short.length) 0

/-- The state after the key block with every byte masked. -/
def maskedState (mask : UInt8) (key : List UInt8) : State :=
  Sha256.compress Sha256.initial (Sha256.words ((keyBlock key).map (· ^^^ mask))).toArray

/-- Prepares a key. -/
def Key.ofBytes (key : List UInt8) : Key := ⟨maskedState 0x36 key, maskedState 0x5c key⟩

/-- A digest as the only block after the key block. -/
def digestBlock (s : State) : Array UInt32 :=
  -- After the digest come a one bit, zeros, and the 512 + 256 bits of key block and digest.
  #[s.a, s.b, s.c, s.d, s.e, s.f, s.g, s.h, 0x80000000, 0, 0, 0, 0, 0, 0, 768]

/-- The keyed hash of a digest. -/
def Key.onDigest (k : Key) (s : State) : State :=
  Sha256.compress k.outer (digestBlock (Sha256.compress k.inner (digestBlock s)))

/-- The keyed hash of a message. -/
def Key.onMessage (k : Key) (message : List UInt8) : State :=
  Sha256.compress k.outer (digestBlock (Sha256.finish k.inner 64 message))

/-- The authentication code of a message under a key. -/
def mac (key message : List UInt8) : List UInt8 := ((Key.ofBytes key).onMessage message).digest

/-! ## Key derivation -/

/-- The sum of two states, word by word without carry. -/
def addStates (s t : State) : State :=
  ⟨s.a ^^^ t.a, s.b ^^^ t.b, s.c ^^^ t.c, s.d ^^^ t.d,
    s.e ^^^ t.e, s.f ^^^ t.f, s.g ^^^ t.g, s.h ^^^ t.h⟩

/-- Iterates the keyed hash and sums what it gives. -/
def iterate (k : Key) : Nat → State → State → State
  | 0, _, sum => sum
  | n + 1, last, sum =>
    let next := k.onDigest last
    iterate k n next (addStates sum next)

/-- The `index`-th block of derived bytes. -/
def derivedBlock (k : Key) (salt : List UInt8) (iterations index : Nat) : List UInt8 :=
  let first := k.onMessage (salt ++ Sha256.wordBytes (UInt32.ofNat index))
  (iterate k (iterations - 1) first first).digest

/-- Derives `length` bytes from a password and a salt. -/
def stretch (password salt : List UInt8) (iterations length : Nat) : List UInt8 :=
  let k := Key.ofBytes password
  ((List.range ((length + 31) / 32)).flatMap fun i =>
    derivedBlock k salt iterations (i + 1)).take length

end RecordSeal.Crypto.Hmac
