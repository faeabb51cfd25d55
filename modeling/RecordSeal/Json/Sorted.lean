import RecordSeal.Json.Printer

set_option autoImplicit false

/-! # Sorted fields

`Assoc.sort` puts the fields of an object in the order of their names, and `Value.sorted` does so at
every depth. Texts are ordered by code point and numbers by size; there is no order between the two
(`Value.misfit?`). Two values that differ only in the order of fields have one sorted form. -/

namespace RecordSeal

namespace Name

/-! ## The order of names -/

/-- The code points of a name as it is written. -/
def codes (n : Name) : List Nat := (Json.nameText n).map Text.Point.code

/-- How high a number among names stands: the sign of an infinity, zero for other numbers, and how
often the least positive floating-point number goes into it. -/
def height? : Name → Option (Int × Int)
  | .bool b => some (0, if b then twoTo 1074 else 0)
  | .int n => some (0, n * twoTo 1074)
  | .float (.number negative place) =>
    let sign : Int := if negative then -1 else 1
    some <| match (Binary64.number negative place).finite? with
      | some (m, q) => (0, sign * m * twoTo (q + 1074).toNat)
      | none => (sign, 0)
  | _ => none

/-- Whether a name comes before another one in sorted fields: numbers by height, all else by code
point. -/
def isBefore (m n : Name) : Bool :=
  match m.height?, n.height? with
  | some a, some b => a.1 < b.1 || (a.1 = b.1 && a.2 < b.2)
  | _, _ => m.codes < n.codes

/-- The kind of names that a name has an order with. -/
def order? : Name → Option String
  | .null => none
  | .bool _ => some "number"
  | .int _ => some "number"
  | .float _ => some "number"
  | name => some name.kindName

/-- Whether there is an order between two names: texts are ordered among themselves, and so are
numbers, byte strings and names of another kind. -/
def isComparable (m n : Name) : Bool := m.order?.isSome && m.order? = n.order?

/-- The first of distinct names that has no order with the one before it, and that one. -/
def misfit? : List Name → Option (Name × Name)
  | m :: n :: rest => if m.isComparable n then misfit? (n :: rest) else some (n, m)
  | _ => none

end Name

namespace Assoc

variable {α : Type}

/-! ## Sorting -/

/-- Puts a field before the first one whose name is not smaller. -/
def insertSorted (k : Name) (a : α) : Assoc Name α → Assoc Name α
  | [] => [(k, a)]
  | (l, b) :: rest =>
    if l.isBefore k then (l, b) :: insertSorted k a rest else (k, a) :: (l, b) :: rest

/-- Sorts by name; fields of one name keep their order. -/
def sort : Assoc Name α → Assoc Name α
  | [] => []
  | (k, a) :: rest => insertSorted k a (sort rest)

end Assoc

namespace Value

mutual

/-- The value with the fields of every object in it sorted by name. -/
def sorted : Value → Value
  | .list items => .list (sortedItems items)
  | .object fields => .object (Assoc.sort (sortedFields fields))
  | v => v

/-- Sorts within each item. -/
def sortedItems : List Value → List Value
  | [] => []
  | v :: rest => v.sorted :: sortedItems rest

/-- Sorts within each field. -/
def sortedFields : List (Name × Value) → List (Name × Value)
  | [] => []
  | (k, v) :: rest => (k, v.sorted) :: sortedFields rest

end

/-! ## What cannot be sorted -/

mutual

/-- Names of one object in a value that have no order, if there are such: the outermost first. -/
def misfit? : Value → Option (Name × Name)
  | .list items => misfitItem? items
  | .object fields => (Name.misfit? (Assoc.keys fields)).or (misfitField? fields)
  | _ => none

/-- Names without an order within the first item that has such. -/
def misfitItem? : List Value → Option (Name × Name)
  | [] => none
  | v :: rest => v.misfit?.or (misfitItem? rest)

/-- Names without an order within the first field that has such. -/
def misfitField? : List (Name × Value) → Option (Name × Name)
  | [] => none
  | (_, v) :: rest => v.misfit?.or (misfitField? rest)

end

end Value

end RecordSeal
