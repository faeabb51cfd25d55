set_option autoImplicit false

/-! # AES with 256-bit keys

A block is a list of sixteen bytes, column by column. Fourteen rounds substitute its bytes, shift
its rows, mix its columns and add a round key. A block stays a block (`length_encryptBlock`). -/

namespace RecordSeal.Crypto.Aes

/-- The byte substitution: the inverse in the field of 256 elements, then an affine map. -/
def substitution : Array UInt8 := #[
  0x63, 0x7c, 0x77, 0x7b, 0xf2, 0x6b, 0x6f, 0xc5, 0x30, 0x01, 0x67, 0x2b, 0xfe, 0xd7, 0xab, 0x76,
  0xca, 0x82, 0xc9, 0x7d, 0xfa, 0x59, 0x47, 0xf0, 0xad, 0xd4, 0xa2, 0xaf, 0x9c, 0xa4, 0x72, 0xc0,
  0xb7, 0xfd, 0x93, 0x26, 0x36, 0x3f, 0xf7, 0xcc, 0x34, 0xa5, 0xe5, 0xf1, 0x71, 0xd8, 0x31, 0x15,
  0x04, 0xc7, 0x23, 0xc3, 0x18, 0x96, 0x05, 0x9a, 0x07, 0x12, 0x80, 0xe2, 0xeb, 0x27, 0xb2, 0x75,
  0x09, 0x83, 0x2c, 0x1a, 0x1b, 0x6e, 0x5a, 0xa0, 0x52, 0x3b, 0xd6, 0xb3, 0x29, 0xe3, 0x2f, 0x84,
  0x53, 0xd1, 0x00, 0xed, 0x20, 0xfc, 0xb1, 0x5b, 0x6a, 0xcb, 0xbe, 0x39, 0x4a, 0x4c, 0x58, 0xcf,
  0xd0, 0xef, 0xaa, 0xfb, 0x43, 0x4d, 0x33, 0x85, 0x45, 0xf9, 0x02, 0x7f, 0x50, 0x3c, 0x9f, 0xa8,
  0x51, 0xa3, 0x40, 0x8f, 0x92, 0x9d, 0x38, 0xf5, 0xbc, 0xb6, 0xda, 0x21, 0x10, 0xff, 0xf3, 0xd2,
  0xcd, 0x0c, 0x13, 0xec, 0x5f, 0x97, 0x44, 0x17, 0xc4, 0xa7, 0x7e, 0x3d, 0x64, 0x5d, 0x19, 0x73,
  0x60, 0x81, 0x4f, 0xdc, 0x22, 0x2a, 0x90, 0x88, 0x46, 0xee, 0xb8, 0x14, 0xde, 0x5e, 0x0b, 0xdb,
  0xe0, 0x32, 0x3a, 0x0a, 0x49, 0x06, 0x24, 0x5c, 0xc2, 0xd3, 0xac, 0x62, 0x91, 0x95, 0xe4, 0x79,
  0xe7, 0xc8, 0x37, 0x6d, 0x8d, 0xd5, 0x4e, 0xa9, 0x6c, 0x56, 0xf4, 0xea, 0x65, 0x7a, 0xae, 0x08,
  0xba, 0x78, 0x25, 0x2e, 0x1c, 0xa6, 0xb4, 0xc6, 0xe8, 0xdd, 0x74, 0x1f, 0x4b, 0xbd, 0x8b, 0x8a,
  0x70, 0x3e, 0xb5, 0x66, 0x48, 0x03, 0xf6, 0x0e, 0x61, 0x35, 0x57, 0xb9, 0x86, 0xc1, 0x1d, 0x9e,
  0xe1, 0xf8, 0x98, 0x11, 0x69, 0xd9, 0x8e, 0x94, 0x9b, 0x1e, 0x87, 0xe9, 0xce, 0x55, 0x28, 0xdf,
  0x8c, 0xa1, 0x89, 0x0d, 0xbf, 0xe6, 0x42, 0x68, 0x41, 0x99, 0x2d, 0x0f, 0xb0, 0x54, 0xbb, 0x16]

/-- Substitutes a byte. -/
def subByte (b : UInt8) : UInt8 := substitution.getD b.toNat 0

/-- Doubles an element of the field of 256 elements. -/
def double (b : UInt8) : UInt8 := if b < 0x80 then b <<< 1 else (b <<< 1) ^^^ 0x1b

/-- Adds two lists of bytes without carry, as far as the shorter one goes. -/
def add (xs ys : List UInt8) : List UInt8 := List.zipWith (· ^^^ ·) xs ys

/-! ## Rounds -/

/-- Where each byte comes from when row `r` moves `r` places to the left. -/
def rowShift : List Nat := [0, 5, 10, 15, 4, 9, 14, 3, 8, 13, 2, 7, 12, 1, 6, 11]

/-- Shifts the rows of a block. -/
def shiftRows (block : List UInt8) : List UInt8 := rowShift.map fun i => block.getD i 0

/-- Mixes each column of four bytes. -/
def mixColumns : List UInt8 → List UInt8
  | a :: b :: c :: d :: rest =>
    let sum := a ^^^ b ^^^ c ^^^ d
    -- `2a + 3b + c + d` is `a + sum + 2(a + b)` where every element is its own negative.
    (a ^^^ sum ^^^ double (a ^^^ b)) :: (b ^^^ sum ^^^ double (b ^^^ c)) ::
      (c ^^^ sum ^^^ double (c ^^^ d)) :: (d ^^^ sum ^^^ double (d ^^^ a)) :: mixColumns rest
  | _ => []

/-- Runs the rounds with the given keys; the last one does not mix. -/
def runRounds : List (List UInt8) → List UInt8 → List UInt8
  | [], block => block
  | [last], block => add (shiftRows (block.map subByte)) last
  | key :: rest, block => runRounds rest (add (mixColumns (shiftRows (block.map subByte))) key)

/-! ## Keys -/

/-- Extends a reversed list of key words by `n` words, the `i`-th word being next; `constant`
is the next round constant. -/
def extendKey : Nat → Nat → UInt8 → List (List UInt8) → List (List UInt8)
  | 0, _, _, acc => acc
  | n + 1, i, constant, acc =>
    let last := acc.headD []
    let back := acc.getD 7 []
    -- A key of eight words substitutes twice in eight words, and turns the word once.
    if i % 8 = 0 then
      let turned := (last.drop 1 ++ last.take 1).map subByte
      extendKey n (i + 1) (double constant) (add back (add turned [constant, 0, 0, 0]) :: acc)
    else if i % 8 = 4 then
      extendKey n (i + 1) constant (add back (last.map subByte) :: acc)
    else extendKey n (i + 1) constant (add back last :: acc)

/-- Splits a list into `n` lists of the given length. -/
def split (length : Nat) : Nat → List UInt8 → List (List UInt8)
  | 0, _ => []
  | n + 1, xs => xs.take length :: split length n (xs.drop length)

/-- The fifteen round keys of a key of thirty-two bytes. -/
def roundKeys (key : List UInt8) : List (List UInt8) :=
  split 16 15 (extendKey 52 8 1 (split 4 8 key).reverse).reverse.flatten

/-- Encrypts a block under round keys. -/
def encryptBlock (keys : List (List UInt8)) (block : List UInt8) : List UInt8 :=
  match keys with
  | [] => block
  | first :: rest => runRounds rest (add block first)

/-! ## Lengths -/

@[simp] theorem length_add (xs ys : List UInt8) : (add xs ys).length = min xs.length ys.length := by
  simp [add]

@[simp] theorem length_shiftRows (block : List UInt8) : (shiftRows block).length = 16 := rfl

/-- Adding the same bytes twice changes nothing. -/
theorem add_add_cancel {xs ys : List UInt8} (h : xs.length ≤ ys.length) :
    add (add xs ys) ys = xs := by
  induction xs generalizing ys with
  | nil => simp [add]
  | cons x xs ih =>
    cases ys with
    | nil => simp at h
    | cons y ys =>
      have rest := ih (show xs.length ≤ ys.length by simpa using h)
      simp only [add, List.zipWith_cons_cons, UInt8.xor_assoc, UInt8.xor_self, UInt8.xor_zero] at *
      rw [rest]

theorem length_mixColumns (block : List UInt8) :
    (mixColumns block).length = block.length / 4 * 4 := by
  fun_induction mixColumns block with
  | case1 a b c d rest sum ih => simp [ih]; omega
  | case2 block h =>
    -- Fewer than four bytes make no column.
    rcases block with _ | ⟨a, _ | ⟨b, _ | ⟨c, _ | ⟨d, rest⟩⟩⟩⟩
    · rfl
    · simp
    · simp
    · simp
    · exact absurd rfl (h a b c d rest)

theorem length_runRounds {keys : List (List UInt8)} (hk : ∀ k ∈ keys, k.length = 16)
    {block : List UInt8} (hb : block.length = 16) : (runRounds keys block).length = 16 := by
  fun_induction runRounds keys block with
  | case1 block => exact hb
  | case2 last block => simp [hk last (by simp)]
  | case3 key rest block h ih =>
    refine ih (fun k hm => hk k (by simp [hm])) ?_
    simp [length_mixColumns, hk key (by simp)]

theorem length_split (k n : Nat) (xs : List UInt8) : (split k n xs).length = n := by
  induction n generalizing xs with
  | zero => rfl
  | succ n ih => simp [split, ih]

theorem length_of_mem_split {k n : Nat} {xs : List UInt8} (h : k * n ≤ xs.length) :
    ∀ ys ∈ split k n xs, ys.length = k := by
  induction n generalizing xs with
  | zero => simp [split]
  | succ n ih =>
    intro ys hm
    rw [Nat.mul_succ] at h
    rcases List.mem_cons.1 hm with rfl | hm
    · simp; omega
    · exact ih (by simp; omega) ys hm

theorem length_getD {ws : List (List UInt8)} (hw : ∀ w ∈ ws, w.length = 4) {i : Nat}
    (hi : i < ws.length) : (ws.getD i []).length = 4 := by
  simp [List.getD, hi, hw]

/-- Extending keeps words of four bytes and adds as many as it is told. -/
theorem extendKey_words (n i : Nat) (constant : UInt8) {acc : List (List UInt8)}
    (hw : ∀ w ∈ acc, w.length = 4) (hl : 8 ≤ acc.length) :
    (∀ w ∈ extendKey n i constant acc, w.length = 4) ∧
      (extendKey n i constant acc).length = acc.length + n := by
  induction n generalizing i constant acc with
  | zero => exact ⟨hw, rfl⟩
  | succ n ih =>
    have last : (acc.headD []).length = 4 := by
      cases acc with
      | nil => simp at hl
      | cons w rest => exact hw w (by simp)
    have back : (acc.getD 7 []).length = 4 := length_getD hw (by omega)
    have step (w : List UInt8) (h : w.length = 4) (j : Nat) (c : UInt8) :
        (∀ v ∈ extendKey n j c (w :: acc), v.length = 4) ∧
          (extendKey n j c (w :: acc)).length = acc.length + (n + 1) := by
      have words : ∀ v ∈ w :: acc, v.length = 4 := by
        intro v hm
        rcases List.mem_cons.1 hm with rfl | hm
        · exact h
        · exact hw v hm
      obtain ⟨hv, hc⟩ := ih j c words (by simp; omega)
      exact ⟨hv, by rw [hc, List.length_cons]; omega⟩
    have turned : ((acc.headD []).drop 1 ++ (acc.headD []).take 1).length = 4 := by
      rw [List.length_append, List.length_drop, List.length_take, last]
      rfl
    rw [extendKey]
    split
    · exact step _ (by rw [length_add, length_add, List.length_map, turned, back]; rfl) _ _
    · split
      · exact step _ (by rw [length_add, List.length_map, last, back]; rfl) _ _
      · exact step _ (by rw [length_add, last, back]; rfl) _ _

theorem length_flatten_words {ws : List (List UInt8)} (h : ∀ w ∈ ws, w.length = 4) :
    ws.flatten.length = 4 * ws.length := by
  induction ws with
  | nil => rfl
  | cons w ws ih =>
    simp only [List.flatten_cons, List.length_append, List.length_cons,
      ih (fun v hm => h v (by simp [hm])), h w (by simp)]
    omega

/-- Every round key of a whole key fills a block. -/
theorem length_of_mem_roundKeys {key : List UInt8} (h : key.length = 32) :
    ∀ k ∈ roundKeys key, k.length = 16 := by
  have words : ∀ w ∈ (split 4 8 key).reverse, w.length = 4 := by
    simpa using length_of_mem_split (show 4 * 8 ≤ key.length by omega)
  obtain ⟨hw, hl⟩ := extendKey_words 52 8 1 words (by simp [length_split])
  apply length_of_mem_split
  rw [length_flatten_words (by simpa using hw)]
  simp [hl, length_split]

/-- An encrypted block is a block. -/
theorem length_encryptBlock {key block : List UInt8} (hk : key.length = 32)
    (hb : block.length = 16) : (encryptBlock (roundKeys key) block).length = 16 := by
  have keys := length_of_mem_roundKeys hk
  unfold encryptBlock
  split
  · exact hb
  · rename_i first rest h
    rw [h] at keys
    exact length_runRounds (fun k hm => keys k (by simp [hm])) (by simp [hb, keys first (by simp)])

end RecordSeal.Crypto.Aes
