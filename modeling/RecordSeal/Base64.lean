set_option autoImplicit false

/-! # Base64

Three bytes are written as four characters, a shorter last group with padding. Reading comes in
two grades. The lenient one skips foreign characters and stops at complete padding; the strict one
refuses foreign characters, padding in front, characters after padding, and text after a padded
group. Either grade reads what was written (`decode_encode`). -/

namespace RecordSeal.Base64

/-! ## Writing -/

/-- The character of a number below 64. -/
def digit (n : Nat) : Char :=
  if n < 26 then Char.ofNat (65 + n)
  else if n < 52 then Char.ofNat (71 + n)
  else if n < 62 then Char.ofNat (n - 4)
  else if n = 62 then '+' else '/'

/-- Writes bytes in groups of four characters. -/
def encode : List UInt8 → List Char
  | [] => []
  | [a] => [digit (a.toNat / 4), digit (a.toNat % 4 * 16), '=', '=']
  | [a, b] =>
    [digit (a.toNat / 4), digit (a.toNat % 4 * 16 + b.toNat / 16),
      digit (b.toNat % 16 * 4), '=']
  | a :: b :: c :: rest =>
    digit (a.toNat / 4) :: digit (a.toNat % 4 * 16 + b.toNat / 16) ::
      digit (b.toNat % 16 * 4 + c.toNat / 64) :: digit (c.toNat % 64) :: encode rest

/-- The written form as a string. -/
def encodeText (bs : List UInt8) : String := String.ofList (encode bs)

/-! ## Reading -/

/-- Why a text cannot be read. -/
inductive Fault where
  /-- One character is left over after so many others. -/
  | lone (count : Nat)
  /-- The last group is incomplete. -/
  | padding
  /-- The strict grade refuses the form. -/
  | form
  /-- A character is not ASCII. -/
  | notAscii
  deriving DecidableEq

/-- The wording of a fault. -/
def Fault.message : Fault → String
  | .lone count =>
    s!"Invalid base64-encoded string: number of data characters ({count}) cannot be 1 more " ++
      "than a multiple of 4"
  | .padding => "Incorrect padding"
  | .form => "Only base64 data is allowed"
  | .notAscii => "string argument should contain only ASCII characters"

/-- The number a character stands for. -/
def digitValue? (c : Char) : Option Nat :=
  if 'A' ≤ c ∧ c ≤ 'Z' then some (c.toNat - 65)
  else if 'a' ≤ c ∧ c ≤ 'z' then some (c.toNat - 71)
  else if '0' ≤ c ∧ c ≤ '9' then some (c.toNat + 4)
  else if c = '+' then some 62
  else if c = '/' then some 63
  else none

/-- The place inside a group of four characters, with the bits not yet written out. -/
inductive Place where
  | first
  | second (left : Nat)
  | third (left : Nat)
  | fourth (left : Nat)
  deriving DecidableEq

/-- Reads characters from a place in a group. `done` counts the bytes written, `pads` the padding
characters since the last digit, and `padded` says whether there was any. -/
def decodeFrom (strict : Bool) (place : Place) (done pads : Nat) (padded : Bool) :
    List Char → Except Fault (List UInt8)
  | [] =>
    match place with
    | .first => .ok []
    | .second _ => .error (.lone (done / 3 * 4 + 1))
    | _ => .error .padding
  | c :: rest =>
    if c = '=' then
      -- A group of one byte is complete with two padding characters, one of two bytes with one.
      let complete := match place with
        | .first | .second _ => false
        | .third _ => 1 ≤ pads
        | .fourth _ => true
      if complete then
        if strict && !rest.isEmpty then .error .form else .ok []
      else
        let counted := match place with
          | .first | .second _ => pads
          | _ => pads + 1
        decodeFrom strict place done counted true rest
    else
      match digitValue? c with
      | none => if strict then .error .form else decodeFrom strict place done pads padded rest
      | some d =>
        if strict && padded then .error .form else
        match place with
        | .first => decodeFrom strict (.second d) done 0 padded rest
        | .second l =>
          (decodeFrom strict (.third (d % 16)) (done + 1) 0 padded rest).map
            (UInt8.ofNat (l * 4 + d / 16) :: ·)
        | .third l =>
          (decodeFrom strict (.fourth (d % 4)) (done + 1) 0 padded rest).map
            (UInt8.ofNat (l * 16 + d / 4) :: ·)
        | .fourth l =>
          (decodeFrom strict .first (done + 1) 0 padded rest).map
            (UInt8.ofNat (l * 64 + d) :: ·)

/-- Reads a text; every character of it must be ASCII. -/
def decode (strict : Bool) (cs : List Char) : Except Fault (List UInt8) :=
  if cs.any fun c => 128 ≤ c.toNat then .error .notAscii
  else if strict && cs.head? = some '=' then .error .form
  else decodeFrom strict .first 0 0 false cs

/-- Reads a byte string, each byte of it as a character. -/
def decodeBytes (bs : List UInt8) : Except Fault (List UInt8) :=
  decodeFrom false .first 0 0 false (bs.map fun b => Char.ofNat b.toNat)

/-! ## Reading what was written -/

/-- A character is read as the number it was written for. -/
theorem digitValue?_digit {n : Nat} (h : n < 64) : digitValue? (digit n) = some n := by
  revert n; decide

theorem digit_ne_padding {n : Nat} (h : n < 64) : digit n ≠ '=' := by
  revert n; decide

theorem digit_isAscii {n : Nat} (h : n < 64) : (digit n).toNat < 128 := by
  revert n; decide

/-- What is written is ASCII. -/
theorem encode_isAscii (bs : List UInt8) : ∀ c ∈ encode bs, c.toNat < 128 := by
  have lt (b : UInt8) : b.toNat < 256 := b.toNat_lt
  fun_induction encode bs with
  | case1 => simp
  | case2 a =>
    have := lt a
    simp [digit_isAscii (show a.toNat / 4 < 64 by omega),
      digit_isAscii (show a.toNat % 4 * 16 < 64 by omega)]
  | case3 a b =>
    have := lt a
    have := lt b
    simp [digit_isAscii (show a.toNat / 4 < 64 by omega),
      digit_isAscii (show a.toNat % 4 * 16 + b.toNat / 16 < 64 by omega),
      digit_isAscii (show b.toNat % 16 * 4 < 64 by omega)]
  | case4 a b c rest ih =>
    have := lt a
    have := lt b
    have := lt c
    simp [digit_isAscii (show a.toNat / 4 < 64 by omega),
      digit_isAscii (show a.toNat % 4 * 16 + b.toNat / 16 < 64 by omega),
      digit_isAscii (show b.toNat % 16 * 4 + c.toNat / 64 < 64 by omega),
      digit_isAscii (show c.toNat % 64 < 64 by omega)]
    exact ih

/-- What reading does with a written character. -/
theorem decodeFrom_digit (strict : Bool) (place : Place) (done pads n : Nat) (rest : List Char)
    (h : n < 64) :
    decodeFrom strict place done pads false (digit n :: rest) =
      match place with
      | .first => decodeFrom strict (.second n) done 0 false rest
      | .second l =>
        (decodeFrom strict (.third (n % 16)) (done + 1) 0 false rest).map
          (UInt8.ofNat (l * 4 + n / 16) :: ·)
      | .third l =>
        (decodeFrom strict (.fourth (n % 4)) (done + 1) 0 false rest).map
          (UInt8.ofNat (l * 16 + n / 4) :: ·)
      | .fourth l =>
        (decodeFrom strict .first (done + 1) 0 false rest).map
          (UInt8.ofNat (l * 64 + n) :: ·) := by
  rw [decodeFrom.eq_def]
  cases place <;> simp [digit_ne_padding h, digitValue?_digit h]

theorem decodeFrom_encode (strict : Bool) (bs : List UInt8) (done pads : Nat) :
    decodeFrom strict .first done pads false (encode bs) = .ok bs := by
  have lt (b : UInt8) : b.toNat < 256 := b.toNat_lt
  have join (b : UInt8) (n : Nat) (h : n = b.toNat) : UInt8.ofNat n = b := by simp [h]
  fun_induction encode bs generalizing done pads with
  | case1 => rfl
  | case2 a =>
    have := lt a
    rw [decodeFrom_digit _ _ _ _ _ _ (by omega)]
    simp only
    rw [decodeFrom_digit _ _ _ _ _ _ (by omega)]
    simp only
    rw [join a _ (by omega)]
    simp [decodeFrom, Except.map]
  | case3 a b =>
    have := lt a
    have := lt b
    rw [decodeFrom_digit _ _ _ _ _ _ (by omega)]
    simp only
    rw [decodeFrom_digit _ _ _ _ _ _ (by omega)]
    simp only
    rw [decodeFrom_digit _ _ _ _ _ _ (by omega)]
    simp only
    rw [join a _ (by omega), join b _ (by omega)]
    simp [decodeFrom, Except.map]
  | case4 a b c rest ih =>
    have := lt a
    have := lt b
    have := lt c
    rw [decodeFrom_digit _ _ _ _ _ _ (by omega)]
    simp only
    rw [decodeFrom_digit _ _ _ _ _ _ (by omega)]
    simp only
    rw [decodeFrom_digit _ _ _ _ _ _ (by omega)]
    simp only
    rw [decodeFrom_digit _ _ _ _ _ _ (by omega)]
    simp only
    rw [join a _ (by omega), join b _ (by omega), join c _ (by omega), ih]
    simp [Except.map]

theorem encode_head (bs : List UInt8) : (encode bs).head? ≠ some '=' := by
  fun_cases encode bs with
  | case1 => simp
  | case2 a => simpa using digit_ne_padding (by have := a.toNat_lt; omega)
  | case3 a b => simpa using digit_ne_padding (by have := a.toNat_lt; omega)
  | case4 a b c rest => simpa using digit_ne_padding (by have := a.toNat_lt; omega)

/-- What is written is read back by either grade. -/
theorem decode_encode (strict : Bool) (bs : List UInt8) : decode strict (encode bs) = .ok bs := by
  have ascii : ((encode bs).any fun c => 128 ≤ c.toNat) = false := by
    simpa using encode_isAscii bs
  simp [decode, ascii, encode_head, decodeFrom_encode]

end RecordSeal.Base64
