import RecordSeal.Base64
import RecordSeal.Crypto.Gcm
import RecordSeal.Seal.Description

set_option autoImplicit false

/-! # Encrypted attributes

The value of an encrypted attribute is base64 text of a nonce, the encrypted JSON of the value and
a tag. The name of the attribute is authenticated with it, so the text is of no use under another
name. -/

namespace RecordSeal

/-- The number of bytes of a nonce. -/
def nonceSize : Nat := 12

/-- The number of bytes of a tag. -/
def tagSize : Nat := 16

/-- The bytes of a text; no other value has such. -/
def Value.encoded : Value → Except Failure (List UInt8)
  | .text s => .ok (Text.utf8 s.toList)
  | .brokenText ps => (Text.utf8OfPoints ps).mapError .unencodable
  | v => .error (.lacking (.ofValue v.kindName "encode"))

/-- Encrypts the JSON text of an attribute, given the bytes of its name, under a nonce. -/
def encryptText (key nonce name : List UInt8) (json : List Char) : String :=
  let (cipher, tag) := Crypto.Gcm.sealText key nonce name (Text.utf8 json)
  Base64.encodeText (nonce ++ cipher ++ tag)

/-- The bytes that an encrypted attribute holds: nonce, cipher text and tag. -/
def cipherBytes (name : Name) (v : Value) : Except Failure (List UInt8) :=
  let fault (why : CipherFault) : Except Failure (List UInt8) :=
    .error (.undecryptable name.shown why)
  match v with
  | .text s =>
    match Base64.decode true s.toList with
    | .error _ => fault .notBase64
    | .ok bs => if bs.length < nonceSize + tagSize then fault .tooShort else .ok bs
  | .brokenText _ => fault .notBase64
  | _ => fault .notText

/-- Decrypts an attribute. -/
def decryptValue (lim : Json.Limits) (key : List UInt8) (name : Name) (v : Value) :
    Except Failure Value := do
  let bs ← cipherBytes name v
  let label ← (Value.ofName name).encoded
  let body := bs.drop nonceSize
  let size := body.length - tagSize
  match Crypto.Gcm.openText? key (bs.take nonceSize) label (body.take size) (body.drop size) with
  | none => .error (.undecryptable name.shown .notAuthentic)
  | some plain => do
    let cs ← (Text.ofUtf8 plain).mapError Failure.malformedText
    (Json.readUnmarked lim (Text.points cs)).mapError .malformedJson

end RecordSeal
