set_option autoImplicit false

/-! # Powers of two and ten

Binary and decimal numbers are scaled by powers of natural numbers, which are written here as
functions of the exponent. -/

namespace RecordSeal

/-- The power of two with an exponent. -/
abbrev twoTo (n : Nat) : Nat := Nat.pow 2 n

/-- The power of ten with an exponent. -/
abbrev tenTo (n : Nat) : Nat := Nat.pow 10 n

end RecordSeal
