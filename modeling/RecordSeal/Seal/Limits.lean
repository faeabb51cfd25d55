import RecordSeal.Json.Limits
import RecordSeal.Number.Power

set_option autoImplicit false

/-! # Limits of sealing and opening

How deep values may be nested is up to the host, and it differs between the places where they are
written or read: the more calls are open at a place, the less is left for the value. How many
iterations are too many is up to the key derivation. Of such limits only this is relied on: what was
written to be encrypted is shallow enough to be read again, what was signed is shallow enough to be
verified, and a description, the object of what is signed and one iteration are within them. -/

namespace RecordSeal.Sealer

/-- The limits that a sealer meets. -/
structure Limits where
  /-- How many digits a whole number may have. -/
  digits : Nat
  /-- The depth of a value that is written to be encrypted. -/
  encryptDepth : Nat
  /-- The depth of a value that is read after it was decrypted. -/
  decryptDepth : Nat
  /-- The depth of a description that is read. -/
  describeDepth : Nat
  /-- The depth of what is signed as a record is sealed. -/
  signDepth : Nat
  /-- The depth of what was signed as a record is opened. -/
  verifyDepth : Nat
  /-- The least number of iterations that is too large. -/
  iterations : Nat
  encrypt_le_decrypt : encryptDepth ≤ decryptDepth
  sign_le_verify : signDepth ≤ verifyDepth
  describe_pos : 0 < describeDepth
  /-- Signed attributes are an object in an object. -/
  two_le_sign : 2 ≤ signDepth
  iterations_pos : 0 < iterations

namespace Limits

/-- The limits of an interpreter in which few calls are open. Signing has one more open than the
other places. -/
def standard : Limits where
  digits := Literal.maxDigits
  encryptDepth := 985
  decryptDepth := 985
  describeDepth := 985
  signDepth := 984
  verifyDepth := 985
  iterations := twoTo 64
  encrypt_le_decrypt := by decide
  sign_le_verify := by decide
  describe_pos := by decide
  two_le_sign := by decide
  iterations_pos := by decide

/-- The limits of what is encrypted. -/
def encrypting (l : Limits) : Json.Limits := ⟨l.digits, l.encryptDepth⟩

/-- The limits of what is decrypted. -/
def decrypting (l : Limits) : Json.Limits := ⟨l.digits, l.decryptDepth⟩

/-- The limits of descriptions. -/
def describing (l : Limits) : Json.Limits := ⟨l.digits, l.describeDepth⟩

/-- The limits of what is signed. -/
def signing (l : Limits) : Json.Limits := ⟨l.digits, l.signDepth⟩

/-- The limits of what is verified. -/
def verifying (l : Limits) : Json.Limits := ⟨l.digits, l.verifyDepth⟩

theorem encrypting_within (l : Limits) : l.encrypting.Within l.decrypting :=
  ⟨Nat.le_refl _, l.encrypt_le_decrypt⟩

theorem signing_within (l : Limits) : l.signing.Within l.verifying :=
  ⟨Nat.le_refl _, l.sign_le_verify⟩

/-- How many lists and objects may enclose a part of a signed value. -/
def signedDepth (l : Limits) : Nat := l.signDepth - 2

end Limits

end RecordSeal.Sealer
