set_option autoImplicit false

/-! # Code points

A text is a list of characters. What an escape or a byte string gives may also hold half of a pair
of surrogates, which is no character; such a text is a list of code points. Texts of characters are
among these (`points`), and `chars?` finds them there. -/

namespace RecordSeal.Text

/-- A code point: a character, or a lone surrogate by its distance from U+D800. -/
inductive Point where
  | char (c : Char)
  | lone (offset : Fin 0x800)
  deriving DecidableEq

namespace Point

/-- The number of a code point. -/
def code : Point → Nat
  | .char c => c.toNat
  | .lone offset => 0xD800 + offset.val

/-- The code point of a number. -/
def ofCode (n : Nat) : Point :=
  if h : 0xD800 ≤ n ∧ n < 0xE000 then .lone ⟨n - 0xD800, by omega⟩ else .char (Char.ofNat n)

/-- The character that a code point is, if it is one. -/
def char? : Point → Option Char
  | .char c => some c
  | .lone _ => none

/-- A character in the place of a code point; the replacement character stands for a lone
surrogate. -/
def replaced (p : Point) : Char := p.char?.getD '\uFFFD'

end Point

/-- The code points of a text. -/
def points (cs : List Char) : List Point := cs.map Point.char

/-- The characters of a text that holds no lone surrogate. -/
def chars? (ps : List Point) : Option (List Char) := ps.mapM Point.char?

@[simp] theorem chars?_points (cs : List Char) : chars? (points cs) = some cs := by
  induction cs with
  | nil => rfl
  | cons c rest ih => simp_all [chars?, points, Point.char?]

/-- The characters of a text, with a replacement for each lone surrogate. -/
def replaced (ps : List Point) : String := String.ofList (ps.map Point.replaced)

end RecordSeal.Text
