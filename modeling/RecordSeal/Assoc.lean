set_option autoImplicit false

/-! # Insertion-ordered tables

A table is a list of key and entry pairs. A key that is set again keeps its place and takes the
new entry; a new key goes to the end. Keys are compared by `==`, which may take different keys for
the same one; of these the first one stays. Tables built by these operations hold every key once
(`Assoc.Distinct`), and what they answer is seen through `Assoc.get?`. -/

namespace RecordSeal

/-- A table from keys to entries that remembers the order in which its keys first came. -/
abbrev Assoc (κ α : Type) := List (κ × α)

namespace Assoc

variable {κ α β : Type} [BEq κ]

/-! ## Operations -/

/-- The entry under a key. -/
def get? : Assoc κ α → κ → Option α
  | [], _ => none
  | (k, a) :: rest, q => if k == q then some a else get? rest q

/-- Whether a key has an entry. -/
def contains (m : Assoc κ α) (k : κ) : Bool := (m.get? k).isSome

/-- Sets the entry under a key, in place if the key is there, at the end if it is new. -/
def insert : Assoc κ α → κ → α → Assoc κ α
  | [], q, b => [(q, b)]
  | (k, a) :: rest, q, b => if k == q then (k, b) :: rest else (k, a) :: insert rest q b

/-- Removes a key and leaves the others in their order. -/
def erase (m : Assoc κ α) (k : κ) : Assoc κ α := m.filter fun e => !(e.1 == k)

/-- The keys in order. -/
def keys (m : Assoc κ α) : List κ := m.map Prod.fst

/-- Sets every pair of a list in turn: a repeated key keeps its first place and its last entry. -/
def insertAll (m : Assoc κ α) (pairs : List (κ × α)) : Assoc κ α :=
  pairs.foldl (fun t e => t.insert e.1 e.2) m

/-- The table that a list of pairs describes. -/
def ofList (pairs : List (κ × α)) : Assoc κ α := insertAll [] pairs

/-- Keeps the keys and changes every entry. -/
def mapValues (f : α → β) (m : Assoc κ α) : Assoc κ β := m.map fun e => (e.1, f e.2)

/-- Two tables that answer alike on every key either of them has. -/
def agrees [DecidableEq α] (m n : Assoc κ α) : Bool :=
  m.keys.all (fun k => m.get? k = n.get? k) && n.keys.all (fun k => m.get? k = n.get? k)

/-- No key occurs twice. -/
def Distinct (m : Assoc κ α) : Prop := m.keys.Pairwise fun k l => (k == l) = false

/-! ## What each operation answers -/

@[simp] theorem get?_nil (k : κ) : get? ([] : Assoc κ α) k = none := rfl

@[simp] theorem get?_cons (k : κ) (a : α) (m : Assoc κ α) (q : κ) :
    get? ((k, a) :: m) q = if k == q then some a else m.get? q := rfl

/-- A key has an entry exactly if it is the same as one of the keys. -/
theorem contains_eq_any_keys (m : Assoc κ α) (k : κ) : m.contains k = m.keys.any (· == k) := by
  induction m with
  | nil => rfl
  | cons e rest ih => grind [contains, keys, get?]

/-- Setting a key keeps the keys' order and adds at most that key, at the end. -/
theorem keys_insert (m : Assoc κ α) (k : κ) (a : α) :
    (m.insert k a).keys = if m.contains k then m.keys else m.keys ++ [k] := by
  induction m with
  | nil => rfl
  | cons e rest ih => grind [contains, insert, keys, get?]

theorem Distinct.insert {m : Assoc κ α} (h : m.Distinct) (k : κ) (a : α) :
    (m.insert k a).Distinct := by
  unfold Distinct at *
  rw [keys_insert]
  split
  · exact h
  · next absent =>
    refine List.pairwise_append.2 ⟨h, List.pairwise_singleton _ _, fun l hl j hj => ?_⟩
    obtain rfl := List.mem_singleton.1 hj
    simp only [contains_eq_any_keys, List.any_eq_true, not_exists, not_and] at absent
    exact Bool.not_eq_true _ ▸ absent l hl

variable [EquivBEq κ]

theorem get?_insert (m : Assoc κ α) (k : κ) (a : α) (q : κ) :
    (m.insert k a).get? q = if k == q then some a else m.get? q := by
  induction m with
  | nil => rfl
  | cons e rest ih =>
    have same (h : e.1 == k) : (e.1 == q) = (k == q) := BEq.congr_left h
    have tied (h : e.1 == q) (h' : k == q) : e.1 == k := BEq.trans h (BEq.symm h')
    grind [insert, get?]

theorem get?_erase (m : Assoc κ α) (k q : κ) :
    (m.erase k).get? q = if k == q then none else m.get? q := by
  induction m with
  | nil => simp [erase]
  | cons e rest ih =>
    have same (h : e.1 == k) : (e.1 == q) = (k == q) := BEq.congr_left h
    have tied (h : e.1 == q) (h' : k == q) : e.1 == k := BEq.trans h (BEq.symm h')
    grind [erase, get?]

end Assoc

end RecordSeal
