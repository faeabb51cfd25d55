import RecordSeal.Crypto.Hmac
import RecordSeal.Proofs.Json.Obstacle
import RecordSeal.Proofs.Json.Reread
import RecordSeal.Proofs.Text.Utf8
import RecordSeal.Seal.Attribute
import RecordSeal.Seal.Description

set_option autoImplicit false

/-! # Encrypted attributes read back

The parts of an encrypted attribute have fixed lengths but for the cipher text, so they are found
again, and what was encrypted under a key and a name is decrypted under them, if the limits then are
not narrower (`decryptValue_encryptText`). What is decrypted is a value that can be read
(`isRead_of_decryptValue`). -/

namespace RecordSeal

open Text (points)

/-! ## Lengths -/

namespace Crypto

@[simp] theorem length_digest (s : Sha256.State) : s.digest.length = 32 := rfl

theorem length_stretch (password salt : List UInt8) (iterations : Nat) :
    (Hmac.stretch password salt iterations 64).length = 64 := by
  have blocks : (Hmac.stretch password salt iterations 64) =
      ((Hmac.derivedBlock (Hmac.Key.ofBytes password) salt iterations 1) ++
        (Hmac.derivedBlock (Hmac.Key.ofBytes password) salt iterations 2)).take 64 := by
    simp [Hmac.stretch, List.range_succ]
  rw [blocks, List.length_take, List.length_append]
  rfl

theorem length_sealText_tag {key nonce : List UInt8} (hk : key.length = 32)
    (hn : nonce.length = nonceSize) (associated text : List UInt8) :
    (Gcm.sealText key nonce associated text).2.length = tagSize := by
  have counter : (Gcm.counterBlock nonce 1).length = 16 := by
    simp [Gcm.counterBlock, hn, nonceSize]
  have block : (Aes.encryptBlock (Aes.roundKeys key) (Gcm.counterBlock nonce 1)).length = 16 :=
    Aes.length_encryptBlock hk counter
  unfold Gcm.sealText Gcm.tag
  dsimp only
  rw [Aes.length_add, block]
  rfl

theorem length_sealText_cipher {key nonce : List UInt8} (hk : key.length = 32)
    (hn : nonce.length = nonceSize) (associated text : List UInt8) :
    (Gcm.sealText key nonce associated text).1.length = text.length := by
  unfold Gcm.sealText
  dsimp only
  rw [Gcm.length_crypt hk hn]

end Crypto

/-! ## Attributes -/

/-- The bytes of an encrypted attribute are found again. -/
theorem cipherBytes_encryptText {key nonce : List UInt8} (hk : key.length = 32)
    (hn : nonce.length = nonceSize) (label : List UInt8) (json : List Char) (name : Name) :
    cipherBytes name (.text (encryptText key nonce label json)) =
      .ok (nonce ++ (Crypto.Gcm.sealText key nonce label (Text.utf8 json)).1 ++
        (Crypto.Gcm.sealText key nonce label (Text.utf8 json)).2) := by
  have tag : (Crypto.Gcm.sealText key nonce label (Text.utf8 json)).2.length = tagSize :=
    Crypto.length_sealText_tag hk hn label _
  have text : (encryptText key nonce label json).toList =
      Base64.encode (nonce ++ (Crypto.Gcm.sealText key nonce label (Text.utf8 json)).1 ++
        (Crypto.Gcm.sealText key nonce label (Text.utf8 json)).2) := by
    simp only [encryptText, Base64.encodeText, String.toList_ofList]
  simp only [cipherBytes, text, Base64.decode_encode]
  rw [if_neg]
  simp only [List.length_append]
  omega

/-- The value of a text that can be written is read back from it. -/
theorem readUnmarked_json {sep : Json.Separators} (plain : sep.IsPlain) {l m : Json.Limits}
    (within : l.Within m) {v : Value} (hv : v.IsRead) {json : List Char}
    (written : v.json l sep = .ok json) : Json.readUnmarked m (points json) = .ok v := by
  unfold Value.json at written
  split at written
  · cases written
  · next clear =>
    cases written
    exact Json.readUnmarked_print plain hv (Json.obstacle?_eq_none_of_within within clear)

/-- What was encrypted under a key and a name is decrypted under them. -/
theorem decryptValue_encryptText {l m : Json.Limits} (within : l.Within m)
    {key nonce label : List UInt8} {name : Name} {v : Value} {json : List Char}
    (hk : key.length = 32) (hn : nonce.length = nonceSize)
    (named : (Value.ofName name).encoded = .ok label) (hv : v.IsRead)
    (written : v.json l Json.spaced = .ok json) :
    decryptValue m key name (.text (encryptText key nonce label json)) = .ok v := by
  have tag : (Crypto.Gcm.sealText key nonce label (Text.utf8 json)).2.length = tagSize :=
    Crypto.length_sealText_tag hk hn label _
  have opened := Crypto.Gcm.openText?_sealText hk hn label (Text.utf8 json)
  have read := readUnmarked_json Json.isPlain_spaced within hv written
  have bytes := cipherBytes_encryptText hk hn label json name
  generalize Crypto.Gcm.sealText key nonce label (Text.utf8 json) = parts at *
  obtain ⟨cipher, given⟩ := parts
  have nonce_ : (nonce ++ cipher ++ given).take nonceSize = nonce := by
    rw [List.append_assoc, List.take_left' hn]
  have body : (nonce ++ cipher ++ given).drop nonceSize = cipher ++ given := by
    rw [List.append_assoc, List.drop_left' hn]
  have size : (cipher ++ given).length - tagSize = cipher.length := by
    rw [List.length_append, tag, Nat.add_sub_cancel]
  simp only [decryptValue, bytes, named, bind, Except.bind, body, nonce_, size, List.take_left,
    List.drop_left, opened, Text.ofUtf8_utf8, Except.mapError, read]

/-- What is decrypted can be encrypted and decrypted again: it was read of a JSON text. -/
theorem isRead_of_decryptValue {lim : Json.Limits} {key : List UInt8} {name : Name} {v w : Value}
    (h : decryptValue lim key name w = .ok v) : v.IsRead := by
  obtain ⟨bs, -, h⟩ := exists_of_bind_eq_ok h
  obtain ⟨label, -, h⟩ := exists_of_bind_eq_ok h
  dsimp only at h
  split at h
  · cases h
  · obtain ⟨cs, -, h⟩ := exists_of_bind_eq_ok h
    cases read : Json.readUnmarked lim (Text.points cs) with
    | error why =>
      rw [read] at h
      cases h
    | ok u =>
      rw [read] at h
      cases h
      exact Json.isRead_of_readUnmarked read

end RecordSeal
