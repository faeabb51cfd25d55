import RecordSeal.Number.Binary64

set_option autoImplicit false

/-! # Decimal text of numbers

Natural numbers and integers are written without leading zeros. A binary64 number is written with
the fewest digits that read back as the same number, and of those with the nearest ones
(`Binary64.shortest`); `Binary64.text` lays the digits out. -/

namespace RecordSeal

namespace Decimal

/-- The character of a digit below ten. -/
def digitChar (d : Nat) : Char := Char.ofNat (48 + d)

/-- The value of an ASCII digit. -/
def digitValue? (c : Char) : Option Nat :=
  if '0' ≤ c ∧ c ≤ '9' then some (c.toNat - 48) else none

/-- Whether a character is an ASCII digit. -/
def isDigit (c : Char) : Bool := '0' ≤ c && c ≤ '9'

/-- The digits of a natural number, most significant first. -/
def ofNat (n : Nat) : List Char :=
  if n < 10 then [digitChar n] else ofNat (n / 10) ++ [digitChar (n % 10)]
termination_by n

/-- An integer: its digits behind a minus sign if it is negative. -/
def ofInt (n : Int) : List Char :=
  if n < 0 then '-' :: ofNat n.natAbs else ofNat n.natAbs

/-- The number that a list of ASCII digits stands for. -/
def toNat (cs : List Char) : Nat := cs.foldl (fun n c => 10 * n + (c.toNat - 48)) 0

/-- The digits padded with zeros on the left to a width. -/
def padded (width n : Nat) : List Char :=
  let ds := ofNat n
  List.replicate (width - ds.length) '0' ++ ds

end Decimal

namespace Binary64

/-! ## Shortest digits -/

/-- The interval of numbers that round to `m * 2 ^ q`, in quarters of `2 ^ q`: lower end, middle,
upper end. The lower neighbour of a power of two is nearer by half. -/
def quarterBounds (m : Nat) (q : Int) : Nat × Nat × Nat :=
  (if m = twoTo 52 ∧ -1074 < q then 4 * m - 1 else 4 * m - 2, 4 * m, 4 * m + 2)

/-- The candidate on the grid of multiples of `10 ^ k` that lies in the interval of `m * 2 ^ q`
and is nearest to it, a tie going to the even digit. The ends belong to the interval exactly if
`m` is even. -/
def onGrid? (m : Nat) (q k : Int) : Option Nat :=
  let (lo, mid, hi) := quarterBounds m q
  -- Quarters and candidates are compared as whole numbers, both scaled by the same amount.
  let unit := twoTo (q - 2).toNat * tenTo (-k).toNat
  let step := twoTo (2 - q).toNat * tenTo k.toNat
  let inside (c : Nat) : Bool :=
    if m % 2 = 0 then lo * unit ≤ c * step && c * step ≤ hi * unit
    else lo * unit < c * step && c * step < hi * unit
  let c := mid * unit / step
  let below := mid * unit - c * step
  let above := (c + 1) * step - mid * unit
  match inside c, inside (c + 1) with
  | false, false => none
  | true, false => some c
  | false, true => some (c + 1)
  | true, true =>
    if below < above then some c
    else if above < below then some (c + 1)
    else if c % 2 = 0 then some c else some (c + 1)

/-- The first hit on ever finer grids, beginning with the multiples of `10 ^ k`. -/
def firstGrid (m : Nat) (q : Int) : Nat → Int → Nat × Int
  | 0, k => (0, k)
  | fuel + 1, k =>
    match onGrid? m q k with
    | some c => (c, k)
    | none => firstGrid m q fuel (k - 1)

/-- Digits `d` and exponent `k` such that `d * 10 ^ k` is the decimal with the fewest digits that
rounds to `m * 2 ^ q`. The search starts at a power of ten above the number; seventeen digits
always suffice. -/
def shortest (m : Nat) (q : Int) : Nat × Int :=
  -- 30103 / 100000 is just above the decimal logarithm of two.
  let top : Int := ((m.log2 : Int) + 1 + q) * 30103 / 100000 + 2
  firstGrid m q 24 top

/-! ## Layout -/

/-- How the digits of a number are laid out: positional from `10 ^ (least - 1)` up to below
`10 ^ most`, otherwise with an exponent of at least `exponentWidth` digits. -/
structure Layout where
  least : Int
  most : Int
  exponentWidth : Nat
  undefinedText : String
  infiniteText : String

/-- The layout of numbers in sealed values and document keys: positional from 0.0001 to below
`10 ^ 16`, and always a mark after a positional number. -/
def valueLayout : Layout := ⟨-3, 16, 2, "nan", "inf"⟩

/-- Lays out digits with the point after the first `point` of them. -/
def layDigits (lay : Layout) (ds : List Char) (point : Int) : List Char :=
  if lay.least ≤ point ∧ point ≤ lay.most then
    if point ≤ 0 then '0' :: '.' :: (List.replicate (-point).toNat '0' ++ ds)
    else if (ds.length : Int) ≤ point then
      ds ++ List.replicate (point.toNat - ds.length) '0' ++ ['.', '0']
    else ds.take point.toNat ++ '.' :: ds.drop point.toNat
  else
    let e := point - 1
    let mantissa := match ds with
      | [] => []
      | [d] => [d]
      | d :: rest => d :: '.' :: rest
    mantissa ++ 'e' :: (if e < 0 then '-' else '+') :: Decimal.padded lay.exponentWidth e.natAbs

/-- The text of a number under a layout. -/
def textWith (lay : Layout) : Binary64 → List Char
  | .undefined => lay.undefinedText.toList
  | .number negative place =>
    let unsigned := match (number negative place).finite? with
      | none => lay.infiniteText.toList
      | some (0, _) => ['0', '.', '0']
      | some (m, q) =>
        let (d, k) := shortest m q
        let ds := Decimal.ofNat d
        layDigits lay ds (ds.length + k)
    if negative then '-' :: unsigned else unsigned

/-- The text of a number as values and document keys show it. -/
def text (x : Binary64) : List Char := x.textWith valueLayout

end Binary64

end RecordSeal
