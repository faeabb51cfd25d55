import RecordSeal.Crypto.Aes

set_option autoImplicit false

/-! # Authenticated encryption

A text is encrypted by adding a key stream made from counters, and authenticated together with
associated data by a tag. The nonce has twelve bytes. `openText?` gives the text back exactly if
the tag is the one that `sealText` computes. -/

namespace RecordSeal.Crypto.Gcm

/-! ## The field of 2 ^ 128 elements -/

/-- An element, its first coefficient in the most significant bit. -/
structure Element where
  high : UInt64
  low : UInt64
  deriving DecidableEq

/-- The sum of two elements. -/
def Element.add (x y : Element) : Element := ⟨x.high ^^^ y.high, x.low ^^^ y.low⟩

/-- Multiplies by the variable. -/
def Element.shift (x : Element) : Element :=
  let high := x.high >>> 1
  let low := (x.low >>> 1) ||| (x.high <<< 63)
  -- The highest power is replaced by `1 + x + x ^ 2 + x ^ 7`, whose coefficients are `0xe1`.
  if x.low &&& 1 = 0 then ⟨high, low⟩ else ⟨high ^^^ 0xe100000000000000, low⟩

/-- Adds to `sum` the product of `y` and the polynomial whose next `n` coefficients lead `bits`. -/
def mulWord : Nat → UInt64 → Element → Element → Element × Element
  | 0, _, y, sum => (y, sum)
  | n + 1, bits, y, sum =>
    mulWord n (bits <<< 1) y.shift (if bits &&& 0x8000000000000000 = 0 then sum else sum.add y)

/-- The product of two elements. -/
def Element.mul (x y : Element) : Element :=
  let (y', sum) := mulWord 64 x.high y ⟨0, 0⟩
  (mulWord 64 x.low y' sum).2

/-- The number of up to eight bytes, most significant first. -/
def word64 (bs : List UInt8) : UInt64 := bs.foldl (fun n b => (n <<< 8) ||| b.toUInt64) 0

/-- The eight bytes of a number. -/
def word64Bytes (n : UInt64) : List UInt8 :=
  [56, 48, 40, 32, 24, 16, 8, 0].map fun shift : UInt64 => (n >>> shift).toUInt8

/-- The element of a block of sixteen bytes. -/
def Element.ofBytes (block : List UInt8) : Element :=
  ⟨word64 (block.take 8), word64 (block.drop 8)⟩

/-- The bytes of an element. -/
def Element.bytes (x : Element) : List UInt8 := word64Bytes x.high ++ word64Bytes x.low

/-! ## Tags -/

/-- Fills bytes with zeros to whole blocks. -/
def fill (bs : List UInt8) : List UInt8 := bs ++ List.replicate ((16 - bs.length % 16) % 16) 0

/-- Hashes blocks under a key. -/
def hashBlocks (h : Element) : List (List UInt8) → Element → Element
  | [], y => y
  | block :: rest, y => hashBlocks h rest ((y.add (Element.ofBytes block)).mul h)

/-- The blocks that a tag covers: associated data, cipher text, and their lengths in bits. -/
def covered (associated cipher : List UInt8) : List (List UInt8) :=
  let bytes := fill associated ++ fill cipher ++
    word64Bytes (UInt64.ofNat (8 * associated.length)) ++
    word64Bytes (UInt64.ofNat (8 * cipher.length))
  Aes.split 16 (bytes.length / 16) bytes

/-- The counter block after a nonce. -/
def counterBlock (nonce : List UInt8) (n : Nat) : List UInt8 :=
  nonce ++ [24, 16, 8, 0].map fun shift : Nat => UInt8.ofNat (n >>> shift)

/-- The tag of a cipher text and its associated data. -/
def tag (keys : List (List UInt8)) (nonce associated cipher : List UInt8) : List UInt8 :=
  let h := Element.ofBytes (Aes.encryptBlock keys (List.replicate 16 0))
  let y := hashBlocks h (covered associated cipher) ⟨0, 0⟩
  -- The first counter is kept for the tag; the key stream begins with the second.
  Aes.add y.bytes (Aes.encryptBlock keys (counterBlock nonce 1))

/-! ## Texts -/

/-- The key stream for a text of the given length. -/
def keyStream (keys : List (List UInt8)) (nonce : List UInt8) (length : Nat) : List UInt8 :=
  ((List.range ((length + 15) / 16)).flatMap fun i =>
    Aes.encryptBlock keys (counterBlock nonce (i + 2))).take length

/-- Adds the key stream to a text. -/
def crypt (keys : List (List UInt8)) (nonce text : List UInt8) : List UInt8 :=
  Aes.add text (keyStream keys nonce text.length)

/-- The cipher text and the tag of a text. -/
def sealText (key nonce associated text : List UInt8) : List UInt8 × List UInt8 :=
  let keys := Aes.roundKeys key
  let cipher := crypt keys nonce text
  (cipher, tag keys nonce associated cipher)

/-- The text of a cipher text whose tag is right. -/
def openText? (key nonce associated cipher given : List UInt8) : Option (List UInt8) :=
  let keys := Aes.roundKeys key
  if tag keys nonce associated cipher = given then some (crypt keys nonce cipher) else none

/-! ## Opening what was sealed -/

/-- The key stream is as long as the text it is for. -/
theorem length_keyStream {key nonce : List UInt8} (hk : key.length = 32) (hn : nonce.length = 12)
    (n : Nat) : (keyStream (Aes.roundKeys key) nonce n).length = n := by
  have block (i : Nat) :
      (Aes.encryptBlock (Aes.roundKeys key) (counterBlock nonce (i + 2))).length = 16 :=
    Aes.length_encryptBlock hk (by simp [counterBlock, hn])
  have sum (m : Nat) : ((List.range m).map fun _ => 16).sum = 16 * m := by
    induction m with
    | zero => rfl
    | succ m ih =>
      rw [List.range_succ, List.map_append, List.sum_append, ih, Nat.mul_succ]
      rfl
  simp only [keyStream, List.length_take, List.length_flatMap, block, sum]
  omega

@[simp] theorem length_crypt {key nonce : List UInt8} (hk : key.length = 32)
    (hn : nonce.length = 12) (text : List UInt8) :
    (crypt (Aes.roundKeys key) nonce text).length = text.length := by
  simp [crypt, length_keyStream hk hn]

/-- Adding the key stream a second time gives the text back. -/
theorem crypt_crypt {key nonce : List UInt8} (hk : key.length = 32) (hn : nonce.length = 12)
    (text : List UInt8) :
    crypt (Aes.roundKeys key) nonce (crypt (Aes.roundKeys key) nonce text) = text := by
  rw [crypt, length_crypt hk hn, crypt]
  exact Aes.add_add_cancel (by simp [length_keyStream hk hn])

/-- A sealed text opens under the same key, nonce and associated data. -/
theorem openText?_sealText {key nonce : List UInt8} (hk : key.length = 32)
    (hn : nonce.length = 12) (associated text : List UInt8) :
    openText? key nonce associated (sealText key nonce associated text).1
      (sealText key nonce associated text).2 = some text := by
  simp [openText?, sealText, crypt_crypt hk hn]

end RecordSeal.Crypto.Gcm
