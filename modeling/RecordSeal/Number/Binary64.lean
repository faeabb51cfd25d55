import RecordSeal.Number.Power

set_option autoImplicit false

/-! # Binary64 floating-point numbers

The numbers of one sign are counted from zero up to infinity; a number is its sign and its place in
that count, or undefined. Place `n` stands for `m * 2 ^ q`, where `m` has at most fifty-three bits
(`Binary64.finite?`). `Binary64.ofRatio` rounds a quotient of natural numbers to the nearest number,
a tie going to the even one. -/

namespace RecordSeal

/-- The place of infinity among the numbers of one sign: 2047 exponents of `2 ^ 52` numbers each
come before it. -/
def Binary64.infinitePlace : Nat := 2047 * twoTo 52

/-- A binary64 number. -/
inductive Binary64 where
  | undefined
  | number (negative : Bool) (place : Fin (Binary64.infinitePlace + 1))
  deriving DecidableEq

namespace Binary64

/-- The infinity of a sign. -/
def infinity (negative : Bool) : Binary64 := .number negative (Fin.last _)

/-- The zero of a sign. -/
def zero (negative : Bool) : Binary64 := .number negative 0

/-- The number of a sign at a place; places from infinity on are infinite. -/
def atPlace (negative : Bool) (n : Nat) : Binary64 :=
  if h : n < infinitePlace + 1 then .number negative ⟨n, h⟩ else infinity negative

/-- Whether the sign is negative. -/
def isNegative : Binary64 → Bool
  | .undefined => false
  | .number negative _ => negative

/-- The finite number at a place, as `m * 2 ^ q`: the first `2 ^ 52` places lack the leading bit. -/
def finiteAt (n : Nat) : Nat × Int :=
  if n < twoTo 52 then (n, -1074)
  else (twoTo 52 + n % twoTo 52, (n / twoTo 52 : Nat) - 1075)

/-- The `m` and `q` such that the number is `m * 2 ^ q` up to its sign, if it is finite. -/
def finite? : Binary64 → Option (Nat × Int)
  | .undefined => none
  | .number _ place => if place.val = infinitePlace then none else some (finiteAt place.val)

/-- Whether the number is a zero of either sign. -/
def isZero : Binary64 → Bool
  | .undefined => false
  | .number _ place => place.val = 0

/-- Whether the number is neither an infinity nor undefined. -/
def isFinite (x : Binary64) : Bool := x.finite?.isSome

/-! ## Rounding -/

/-- `a / b` to the nearest natural number, a tie to the even one. -/
def roundHalfEven (a b : Nat) : Nat :=
  let low := a / b
  let rest := a % b
  if 2 * rest < b then low
  else if b < 2 * rest then low + 1
  else if low % 2 = 0 then low else low + 1

/-- The grid exponent `q` on which `a / b` has fifty-three bits, never finer than `-1074`. -/
def gridExponent (a b : Nat) : Int :=
  let guess : Int := max ((a.log2 : Int) - b.log2 - 52) (-1074)
  -- The lengths of the parts give the exponent up to one.
  let fits (q : Int) : Bool := a * twoTo (-q).toNat < twoTo 52 * b * twoTo q.toNat
  if fits guess && (-1074 : Int) < guess then guess - 1 else guess

/-- The number nearest to `a / b`, a tie going to the even one; too large a quotient gives the
infinity. The carry into the next exponent is the carry of the addition. -/
def ofRatio (negative : Bool) (a b : Nat) : Binary64 :=
  if a = 0 then zero negative else
  let q := gridExponent a b
  let m := roundHalfEven (a * twoTo (-q).toNat) (b * twoTo q.toNat)
  atPlace negative ((q + 1074).toNat * twoTo 52 + m)

/-- The number nearest to `digits * 10 ^ e`. Exponents far beyond the range are settled without
large powers. -/
def ofDecimal (negative : Bool) (digits : Nat) (e : Int) : Binary64 :=
  if digits = 0 then zero negative
  else if 400 < e then infinity negative
  else if e + digits.log2 < -400 then zero negative
  else ofRatio negative (digits * tenTo e.toNat) (tenTo (-e).toNat)

/-- The number nearest to an integer. -/
def ofInt (n : Int) : Binary64 := ofRatio (n < 0) n.natAbs 1

/-- The integer part, toward zero, of a finite number. -/
def truncate? (x : Binary64) : Option Int :=
  x.finite?.map fun (m, q) =>
    let n : Nat := m * twoTo q.toNat / twoTo (-q).toNat
    if x.isNegative then -n else n

/-- The integer that the number is, if it is one. -/
def whole? (x : Binary64) : Option Int :=
  x.truncate?.filter fun n => x.isZero || ofInt n = x

end Binary64

end RecordSeal
