import RecordSeal.Value

set_option autoImplicit false

/-! # Merging in place

Settings are merged where they are. The objects of settings lie in a memory, each at a place of its
own, and an object holds others by their places: one object may stand under several names and in
several lists, as the aliases of a settings file make it, or in itself. Merging changes the objects
of the target and takes objects of the source in as they are, so that both hold them afterwards
(`Memory.merge`). It is under way in as many calls as the objects are deep, of which the host allows
only so many, and it goes through an object as it finds it at each step; what a merge changed before
it failed stays.

The settings of a program and what a file gives are values. They are laid out in a memory with every
object at one place, merged there and read back (`Memory.mergeApart`). -/

namespace RecordSeal

/-- Whether a value holds no other values. -/
def Value.isLeaf : Value → Bool
  | .list _ => false
  | .object _ => false
  | _ => true

/-- What stands under a name in memory. -/
inductive Slot where
  /-- An object, by its place. -/
  | object (place : Nat)
  | list (items : List Slot)
  | leaf (v : Value) (single : v.isLeaf = true)

/-- The objects of a memory, by place. -/
abbrev Memory := List (Assoc Name Slot)

namespace Memory

/-- The entries of the object at a place. -/
def entries (m : Memory) (place : Nat) : Assoc Name Slot := m.getD place []

/-- Sets an entry of the object at a place. -/
def put (m : Memory) (place : Nat) (k : Name) (slot : Slot) : Memory :=
  m.modify place (·.insert k slot)

/-! ## Merging -/

/-- Why a merge stops on the way. -/
inductive Fault where
  /-- No further call is allowed. -/
  | tooDeep
  /-- An object has got another size since the merge began to go through it. -/
  | resized
  deriving DecidableEq

/-- How a merge ends, and the memory that it leaves. -/
abbrev Outcome := Except Fault Unit × Memory

/-- Merges an entry into the object at a place: two objects are merged, else the entry is set. -/
def mergeEntry (mergeObjects : Nat → Nat → Memory → Outcome) (target : Nat) (k : Name)
    (slot : Slot) (m : Memory) : Outcome :=
  match Assoc.get? (m.entries target) k, slot with
  | some (.object inner), .object given => mergeObjects inner given m
  | _, _ => (.ok (), m.put target k slot)

/-- Merges the entries of the source that are left, while its size is what it was. -/
def mergeEntries (mergeObjects : Nat → Nat → Memory → Outcome) (target source size : Nat) :
    Nat → Memory → Outcome
  | 0, m => (if (m.entries source).length = size then .ok () else .error .resized, m)
  | left + 1, m =>
    if (m.entries source).length = size then
      match (m.entries source)[size - (left + 1)]? with
      | some (k, slot) =>
        match mergeEntry mergeObjects target k slot m with
        | (.ok (), m') => mergeEntries mergeObjects target source size left m'
        | (.error why, m') => (.error why, m')
      | none => (.ok (), m)
    else (.error .resized, m)

/-- Merges the object at a source into the one at a target, by so many calls at most. -/
def merge : Nat → Nat → Nat → Memory → Outcome
  | 0, _, _, m => (.error .tooDeep, m)
  | calls + 1, target, source, m =>
    mergeEntries (merge calls) target source (m.entries source).length
      (m.entries source).length m

end Memory

/-! ## Reading -/

mutual

/-- The value in a slot, given the fields of the objects. -/
def Slot.value (fieldsAt : Nat → Option Record) : Slot → Option Value
  | .object place => (fieldsAt place).map .object
  | .list items => (values fieldsAt items).map .list
  | .leaf v _ => some v

/-- The values in slots. -/
def Slot.values (fieldsAt : Nat → Option Record) : List Slot → Option (List Value)
  | [] => some []
  | slot :: rest =>
    (slot.value fieldsAt).bind fun v => (values fieldsAt rest).map (v :: ·)

end

namespace Memory

/-- The fields that entries stand for, given those of the objects. -/
def fields (fieldsAt : Nat → Option Record) : Assoc Name Slot → Option Record
  | [] => some []
  | (k, slot) :: rest =>
    (slot.value fieldsAt).bind fun v => (fields fieldsAt rest).map ((k, v) :: ·)

/-- The fields of the object at a place, with objects in it at most so deep. An object that is in
itself has none. -/
def read (m : Memory) : Nat → Nat → Option Record
  | 0, _ => none
  | depth + 1, place => m[place]?.bind (fields (m.read depth))

/-! ## Laying out -/

mutual

/-- Lays a value out after what a memory holds, every object at a new place. -/
def layValue (m : Memory) : Value → Slot × Memory
  | .null => (.leaf .null rfl, m)
  | .bool b => (.leaf (.bool b) rfl, m)
  | .int n => (.leaf (.int n) rfl, m)
  | .float x => (.leaf (.float x) rfl, m)
  | .text s => (.leaf (.text s) rfl, m)
  | .brokenText ps => (.leaf (.brokenText ps) rfl, m)
  | .bytes bs => (.leaf (.bytes bs) rfl, m)
  | .foreign => (.leaf .foreign rfl, m)
  | .list items =>
    let below := layItems m items
    (.list below.1, below.2)
  | .object fields =>
    let below := layFields m fields
    (.object below.2.length, below.2 ++ [below.1])

/-- Lays out items. -/
def layItems (m : Memory) : List Value → List Slot × Memory
  | [] => ([], m)
  | v :: rest =>
    let first := layValue m v
    let others := layItems first.2 rest
    (first.1 :: others.1, others.2)

/-- Lays out what fields hold. -/
def layFields (m : Memory) : List (Name × Value) → Assoc Name Slot × Memory
  | [] => ([], m)
  | (k, v) :: rest =>
    let first := layValue m v
    let others := layFields first.2 rest
    ((k, first.1) :: others.1, others.2)

end

/-- Lays out an object with given fields; gives its place. -/
def layObject (m : Memory) (fields : Record) : Nat × Memory :=
  let below := layFields m fields
  (below.2.length, below.2 ++ [below.1])

/-- Merges fields into others with which they share nothing. As many calls are allowed as there are
objects, so that the merge comes to its end. -/
def mergeApart (target source : Record) : Record :=
  let (place, m) := layObject [] target
  let (given, m) := layObject m source
  ((merge m.length place given m).2.read m.length place).getD []

end Memory

end RecordSeal
