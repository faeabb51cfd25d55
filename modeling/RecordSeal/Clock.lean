import RecordSeal.Number.Decimal

set_option autoImplicit false

/-! # Time and randomness

Both come from outside: a moment is given to every operation that writes one, and random bytes are
taken from a stream at a position that only moves forward. -/

namespace RecordSeal

/-- A moment in universal time. -/
structure Timestamp where
  year : Nat
  month : Nat
  day : Nat
  hour : Nat
  minute : Nat
  second : Nat
  microsecond : Nat
  deriving DecidableEq

/-- The moment as text: date, time and offset, with microseconds only if there are any. -/
def Timestamp.text (t : Timestamp) : String :=
  let two (n : Nat) : List Char := Decimal.padded 2 n
  let part := if t.microsecond = 0 then [] else '.' :: Decimal.padded 6 t.microsecond
  String.ofList <|
    Decimal.padded 4 t.year ++ '-' :: two t.month ++ '-' :: two t.day ++ 'T' :: two t.hour ++
      ':' :: two t.minute ++ ':' :: two t.second ++ part ++ "+00:00".toList

/-- A stream of random bytes and the position of the next one. -/
structure Entropy where
  stream : Nat → UInt8
  position : Nat := 0

namespace Entropy

/-- The stream that repeats some bytes without end. -/
def cyclic (bytes : List UInt8) : Entropy :=
  let table := bytes.toArray
  { stream := fun i => table.getD (i % table.size) 0 }

/-- The next `n` bytes. -/
def next (e : Entropy) (n : Nat) : List UInt8 :=
  (List.range n).map fun i => e.stream (e.position + i)

/-- Moves on by `n` bytes. -/
def skip (e : Entropy) (n : Nat) : Entropy := { e with position := e.position + n }

end Entropy

end RecordSeal
