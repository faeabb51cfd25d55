import RecordSeal.Text.Utf8
import Mathlib.Tactic.SplitIfs

set_option autoImplicit false

/-! # UTF-8 read back

The bytes of a character tell how many of them there are and which character they stand for
(`utf8Next_encode`), so a text is read back from its bytes (`ofUtf8_utf8`). -/

namespace RecordSeal.Text

/-! ## Bytes by their numbers -/

theorem followers_eq (b : UInt8) : followers b =
    if b.toNat < 0x80 then some 0 else if b.toNat < 0xC2 then none
    else if b.toNat < 0xE0 then some 1 else if b.toNat < 0xF0 then some 2
    else if b.toNat < 0xF5 then some 3 else none := rfl

theorem secondRange_eq (b : UInt8) : secondRange b =
    if b.toNat = 0xE0 then (0xA0, 0xBF) else if b.toNat = 0xED then (0x80, 0x9F)
    else if b.toNat = 0xF0 then (0x90, 0xBF) else if b.toNat = 0xF4 then (0x80, 0x8F)
    else (0x80, 0xBF) := by
  simp only [secondRange, ← UInt8.toNat_inj]
  rfl

/-- A tail may be the second byte unless the leading byte narrows the range. -/
theorem second_inside {lead b : UInt8} (low : 0x80 ≤ b.toNat) (high : b.toNat ≤ 0xBF)
    (e0 : lead.toNat = 0xE0 → 0xA0 ≤ b.toNat) (ed : lead.toNat = 0xED → b.toNat ≤ 0x9F)
    (f0 : lead.toNat = 0xF0 → 0x90 ≤ b.toNat) (f4 : lead.toNat = 0xF4 → b.toNat ≤ 0x8F) :
    (secondRange lead).1.toNat ≤ b.toNat ∧ b.toNat ≤ (secondRange lead).2.toNat := by
  rw [secondRange_eq]
  split_ifs with h h h h
  · exact ⟨e0 h, high⟩
  · exact ⟨low, ed h⟩
  · exact ⟨f0 h, high⟩
  · exact ⟨low, f4 h⟩
  · exact ⟨low, high⟩

/-- A byte in the range continues a sequence, and what follows it is judged by the wide range. -/
theorem continuing_cons {wanted : Nat} {range : UInt8 × UInt8} {b : UInt8} {rest : List UInt8}
    (inside : range.1.toNat ≤ b.toNat ∧ b.toNat ≤ range.2.toNat)
    (h : continuing wanted (0x80, 0xBF) rest = wanted) :
    continuing (wanted + 1) range (b :: rest) = wanted + 1 := by
  have taken : (range.1 ≤ b && b ≤ range.2) = true := by
    simpa [UInt8.le_iff_toNat_le] using inside
  rw [continuing, if_pos taken, h, Nat.add_comm]

/-- A leading byte and as many bytes that continue it are read as their code point. -/
theorem utf8Next_append {lead : UInt8} {tails : List UInt8}
    (wanted : followers lead = some tails.length) {rest : List UInt8}
    (got : continuing tails.length (secondRange lead) (tails ++ rest) = tails.length) :
    utf8Next lead (tails ++ rest) = .ok (codePoint lead tails, tails.length) := by
  simp only [utf8Next, wanted, got, if_pos, List.take_left]

/-! ## Characters -/

theorem toNat_byte {n : Nat} (h : n < 256) : (UInt8.ofNat n).toNat = n := by
  rw [UInt8.toNat_ofNat', Nat.mod_eq_of_lt h]

section

variable {v : Nat} (rest : List UInt8)

theorem utf8Next_one (small : v ≤ 0x7F) : utf8Next (UInt8.ofNat v) rest = .ok (v, 0) := by
  have lead := toNat_byte (n := v) (by omega)
  have alone : followers (UInt8.ofNat v) = some ([] : List UInt8).length := by
    rw [followers_eq, lead, if_pos (by omega)]
    rfl
  have read : utf8Next (UInt8.ofNat v) ([] ++ rest) = .ok (codePoint (UInt8.ofNat v) [], 0) :=
    utf8Next_append alone rfl
  simpa [codePoint, lead] using read

theorem utf8Next_two (large : 0x7F < v) (small : v ≤ 0x7FF) :
    utf8Next (UInt8.ofNat (v / 64 % 0x20 + 0xC0)) ([UInt8.ofNat (v % 0x40 + 0x80)] ++ rest) =
      .ok (v, 1) := by
  have last := toNat_byte (n := v % 0x40 + 0x80) (by omega)
  have lead := toNat_byte (n := v / 64 % 0x20 + 0xC0) (by omega)
  rw [utf8Next_append]
  · simp only [codePoint, List.length_singleton, List.foldl_cons, List.foldl_nil, lead, last]
    congr 2
    omega
  · rw [followers_eq, lead, if_neg (by omega), if_neg (by omega), if_pos (by omega)]
    rfl
  · exact continuing_cons (second_inside (by omega) (by omega) (by omega) (by omega) (by omega)
      (by omega)) rfl

theorem utf8Next_three (large : 0x7FF < v) (small : v ≤ 0xFFFF)
    (valid : v < 0xD800 ∨ 0xDFFF < v) :
    utf8Next (UInt8.ofNat (v / 4096 % 0x10 + 0xE0))
        ([UInt8.ofNat (v / 64 % 0x40 + 0x80), UInt8.ofNat (v % 0x40 + 0x80)] ++ rest) =
      .ok (v, 2) := by
  have last := toNat_byte (n := v % 0x40 + 0x80) (by omega)
  have third := toNat_byte (n := v / 64 % 0x40 + 0x80) (by omega)
  have lead := toNat_byte (n := v / 4096 % 0x10 + 0xE0) (by omega)
  rw [utf8Next_append]
  · simp only [codePoint, List.length_cons, List.length_nil, List.foldl_cons, List.foldl_nil,
      lead, third, last]
    congr 2
    omega
  · rw [followers_eq, lead, if_neg (by omega), if_neg (by omega), if_neg (by omega),
      if_pos (by omega)]
    rfl
  · -- The second byte keeps the code point above two bytes and outside the surrogates.
    refine continuing_cons (second_inside (by omega) (by omega) (by omega) (by omega) (by omega)
      (by omega)) (continuing_cons ?_ rfl)
    constructor <;> simp only [last, UInt8.reduceToNat] <;> omega

theorem utf8Next_four (large : 0xFFFF < v) (small : v < 0x110000) :
    utf8Next (UInt8.ofNat (v / 262144 % 0x08 + 0xF0))
        ([UInt8.ofNat (v / 4096 % 0x40 + 0x80), UInt8.ofNat (v / 64 % 0x40 + 0x80),
          UInt8.ofNat (v % 0x40 + 0x80)] ++ rest) =
      .ok (v, 3) := by
  have last := toNat_byte (n := v % 0x40 + 0x80) (by omega)
  have third := toNat_byte (n := v / 64 % 0x40 + 0x80) (by omega)
  have second := toNat_byte (n := v / 4096 % 0x40 + 0x80) (by omega)
  have lead := toNat_byte (n := v / 262144 % 0x08 + 0xF0) (by omega)
  rw [utf8Next_append]
  · simp only [codePoint, List.length_cons, List.length_nil, List.foldl_cons, List.foldl_nil,
      lead, second, third, last]
    congr 2
    omega
  · rw [followers_eq, lead, if_neg (by omega), if_neg (by omega), if_neg (by omega),
      if_neg (by omega), if_pos (by omega)]
    rfl
  · -- The second byte keeps the code point above three bytes and below the last one.
    refine continuing_cons (second_inside (by omega) (by omega) (by omega) (by omega) (by omega)
      (by omega)) (continuing_cons ?_ (continuing_cons ?_ rfl))
    · constructor <;> simp only [third, UInt8.reduceToNat] <;> omega
    · constructor <;> simp only [last, UInt8.reduceToNat] <;> omega

end

theorem utf8Next_encode (c : Char) (rest : List UInt8) :
    ∃ lead tails, String.utf8EncodeChar c = lead :: tails ∧
      utf8Next lead (tails ++ rest) = .ok (c.toNat, tails.length) := by
  have valid : c.toNat < 0xD800 ∨ 0xDFFF < c.toNat ∧ c.toNat < 0x110000 := c.valid
  rw [show String.utf8EncodeChar c = if c.toNat ≤ 0x7F then [UInt8.ofNat c.toNat]
    else if c.toNat ≤ 0x7FF then
      [UInt8.ofNat (c.toNat / 64 % 0x20 + 0xC0), UInt8.ofNat (c.toNat % 0x40 + 0x80)]
    else if c.toNat ≤ 0xFFFF then
      [UInt8.ofNat (c.toNat / 4096 % 0x10 + 0xE0), UInt8.ofNat (c.toNat / 64 % 0x40 + 0x80),
        UInt8.ofNat (c.toNat % 0x40 + 0x80)]
    else
      [UInt8.ofNat (c.toNat / 262144 % 0x08 + 0xF0), UInt8.ofNat (c.toNat / 4096 % 0x40 + 0x80),
        UInt8.ofNat (c.toNat / 64 % 0x40 + 0x80), UInt8.ofNat (c.toNat % 0x40 + 0x80)] from rfl]
  -- One case for each length of the sequence.
  split_ifs with one two three
  · exact ⟨_, _, rfl, utf8Next_one rest one⟩
  · exact ⟨_, _, rfl, utf8Next_two rest (by omega) two⟩
  · exact ⟨_, _, rfl, utf8Next_three rest (by omega) three (by omega)⟩
  · exact ⟨_, _, rfl, utf8Next_four rest (by omega) (by omega)⟩

/-! ## Texts -/

theorem utf8Loop_utf8 (cs : List Char) (fuel pos : Nat) (enough : (utf8 cs).length ≤ fuel) :
    utf8Loop fuel pos (utf8 cs) = .ok cs := by
  induction cs generalizing fuel pos with
  | nil =>
    cases fuel <;> rfl
  | cons c cs ih =>
    obtain ⟨lead, tails, bytes, next⟩ := utf8Next_encode c (utf8 cs)
    have form : utf8 (c :: cs) = lead :: (tails ++ utf8 cs) := by
      rw [utf8, List.flatMap_cons, bytes]
      rfl
    rw [form] at enough ⊢
    simp only [List.length_cons, List.length_append] at enough
    obtain ⟨fuel, rfl⟩ : ∃ n, fuel = n + 1 := ⟨fuel - 1, by omega⟩
    rw [utf8Loop, next]
    simp only [List.drop_left, Char.ofNat_toNat]
    rw [ih fuel _ (by omega)]
    rfl

theorem ofUtf8_utf8 (cs : List Char) : ofUtf8 (utf8 cs) = .ok cs :=
  utf8Loop_utf8 cs _ 0 (Nat.le_refl _)

theorem utf8_injective {cs ds : List Char} (h : utf8 cs = utf8 ds) : cs = ds := by
  have read := ofUtf8_utf8 cs
  rw [h, ofUtf8_utf8] at read
  exact (Except.ok.inj read).symm

end RecordSeal.Text
