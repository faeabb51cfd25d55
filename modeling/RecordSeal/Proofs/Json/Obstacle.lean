import RecordSeal.Proofs.Json.Sorted

set_option autoImplicit false

/-! # What is in the way of writing

A value is not written because of the first obstacle that is met, and which one that is depends on
the order of items and fields. Whether there is one does not: byte strings and foreign objects are
obstacles at any depth, numbers with too many digits are, and what is nested too deep is
(`Json.obstacle?_eq_none_iff`). Sorted fields have the same obstacles (`Json.blocks_sorted`), and
what is written under some limits is written under wider ones
(`Json.obstacle?_eq_none_of_within`). -/

namespace RecordSeal

/-- Whether a name is of a kind that has no JSON form. -/
def Name.IsFormless : Name → Prop
  | .bytes _ => True
  | .other .. => True
  | _ => False

namespace Value

/-! ## Parts at any depth -/

/-- Whether a value is another one or stands in it, with so many lists and objects around. -/
inductive Occurs (w : Value) : Nat → Value → Prop where
  | here : Occurs w 0 w
  | item {n : Nat} {items : List Value} {v : Value} (member : v ∈ items) (inside : Occurs w n v) :
      Occurs w (n + 1) (.list items)
  | field {n : Nat} {fields : List (Name × Value)} {e : Name × Value} (member : e ∈ fields)
      (inside : Occurs w n e.2) : Occurs w (n + 1) (.object fields)

/-- Whether a value is of a kind that has no JSON form. -/
def IsFormless : Value → Prop
  | .bytes _ => True
  | .foreign => True
  | _ => False

/-- Whether a value is a list or an object. -/
def HoldsOthers : Value → Prop
  | .list _ => True
  | .object _ => True
  | _ => False

variable {v w : Value} {n : Nat}

theorem Occurs.sorted (occurs : w.Occurs n v) : w.sorted.Occurs n v.sorted := by
  induction occurs with
  | here => exact .here
  | item member _ ih =>
    rw [Value.sorted, sortedItems_eq]
    exact .item (List.mem_map_of_mem member) ih
  | @field _ fields e member _ ih =>
    rw [Value.sorted, sortedFields_eq]
    have kept : (e.1, e.2.sorted) ∈ Assoc.sort (Assoc.mapValues Value.sorted fields) :=
      (Assoc.perm_sort _).mem_iff.2 (List.mem_map_of_mem member)
    exact .field kept ih

/-- What stands in a sorted value is the sorted form of what stood there. -/
theorem exists_of_occurs_sorted (occurs : w.Occurs n v.sorted) :
    ∃ u : Value, u.Occurs n v ∧ u.sorted = w := by
  induction n generalizing v with
  | zero =>
    cases occurs
    exact ⟨v, .here, rfl⟩
  | succ n ih =>
    cases v with
    | list items =>
      rw [sorted, sortedItems_eq] at occurs
      cases occurs with
      | item member inside =>
        obtain ⟨v, listed, rfl⟩ := List.mem_map.1 member
        obtain ⟨u, found, same⟩ := ih inside
        exact ⟨u, .item listed found, same⟩
    | object fields =>
      rw [sorted, sortedFields_eq] at occurs
      cases occurs with
      | field member inside =>
        obtain ⟨e, listed, rfl⟩ := List.mem_map.1 ((Assoc.perm_sort _).mem_iff.1 member)
        obtain ⟨u, found, same⟩ := ih inside
        exact ⟨u, .field listed found, same⟩
    | _ => cases occurs

end Value

namespace Json

variable {digits depth : Nat} {v w : Value} {why : Obstacle}

/-! ## The first obstacle -/

/-- Whether a value cannot be written because of its size, not because of its kind. -/
def Obstacle.IsLimit : Obstacle → Prop
  | .kind _ => False
  | _ => True

theorem exists_of_itemObstacle? {items : List Value}
    (h : itemObstacle? digits depth items = some why) :
    ∃ v ∈ items, obstacle? digits depth v = some why := by
  induction items with
  | nil => cases h
  | cons v items ih =>
    rw [itemObstacle?, Option.or_eq_some_iff] at h
    rcases h with first | ⟨-, rest⟩
    · exact ⟨v, by simp, first⟩
    · obtain ⟨w, hw, found⟩ := ih rest
      exact ⟨w, List.mem_cons_of_mem _ hw, found⟩

theorem exists_of_fieldObstacle? {fields : List (Name × Value)}
    (h : fieldObstacle? digits depth fields = some why) :
    ∃ e ∈ fields, nameObstacle? digits e.1 = some why ∨ obstacle? digits depth e.2 = some why := by
  induction fields with
  | nil => cases h
  | cons e fields ih =>
    obtain ⟨k, v⟩ := e
    rw [fieldObstacle?, Option.or_eq_some_iff, Option.or_eq_some_iff] at h
    rcases h with (name | ⟨-, value⟩) | ⟨-, rest⟩
    · exact ⟨(k, v), by simp, .inl name⟩
    · exact ⟨(k, v), by simp, .inr value⟩
    · obtain ⟨f, hf, found⟩ := ih rest
      exact ⟨f, List.mem_cons_of_mem _ hf, found⟩

theorem itemObstacle?_eq_none_iff {items : List Value} :
    itemObstacle? digits depth items = none ↔ ∀ v ∈ items, obstacle? digits depth v = none := by
  induction items with
  | nil => simp [itemObstacle?]
  | cons v items ih => simp [itemObstacle?, Option.or_eq_none_iff, ih]

theorem fieldObstacle?_eq_none_iff {fields : List (Name × Value)} :
    fieldObstacle? digits depth fields = none ↔
      ∀ e ∈ fields, nameObstacle? digits e.1 = none ∧ obstacle? digits depth e.2 = none := by
  induction fields with
  | nil => simp [fieldObstacle?]
  | cons e fields ih =>
    obtain ⟨k, v⟩ := e
    simp [fieldObstacle?, Option.or_eq_none_iff, ih]

/-! ## Obstacles anywhere -/

/-- What is in the way of writing a value, wherever it stands in it. -/
inductive Blocks (digits depth : Nat) (v : Value) : Obstacle → Prop where
  | kind {n : Nat} {w : Value} (occurs : w.Occurs n v) (formless : w.IsFormless) :
      Blocks digits depth v (.kind (.value w.kindName))
  | key {n : Nat} {fields : List (Name × Value)} {k : Name}
      (occurs : (Value.object fields).Occurs n v) (named : k ∈ Assoc.keys fields)
      (formless : k.IsFormless) : Blocks digits depth v (.kind (.name k.kindName))
  | number {n : Nat} {i : Int} (occurs : (Value.int i).Occurs n v)
      (long : digits < (Decimal.ofNat i.natAbs).length) : Blocks digits depth v (.tooLong digits)
  | name {n : Nat} {fields : List (Name × Value)} {i : Int}
      (occurs : (Value.object fields).Occurs n v) (named : .int i ∈ Assoc.keys fields)
      (long : digits < (Decimal.ofNat i.natAbs).length) : Blocks digits depth v (.tooLong digits)
  | tooDeep {w : Value} (occurs : w.Occurs depth v) (holds : w.HoldsOthers) :
      Blocks digits depth v .tooDeep

theorem Blocks.item {items : List Value} (member : v ∈ items) (blocks : Blocks digits depth v why) :
    Blocks digits (depth + 1) (.list items) why := by
  cases blocks with
  | kind occurs formless => exact .kind (.item member occurs) formless
  | key occurs named formless => exact .key (.item member occurs) named formless
  | number occurs long => exact .number (.item member occurs) long
  | name occurs named long => exact .name (.item member occurs) named long
  | tooDeep occurs holds => exact .tooDeep (.item member occurs) holds

theorem Blocks.field {fields : List (Name × Value)} {e : Name × Value} (member : e ∈ fields)
    (blocks : Blocks digits depth e.2 why) : Blocks digits (depth + 1) (.object fields) why := by
  cases blocks with
  | kind occurs formless => exact .kind (.field member occurs) formless
  | key occurs named formless => exact .key (.field member occurs) named formless
  | number occurs long => exact .number (.field member occurs) long
  | name occurs named long => exact .name (.field member occurs) named long
  | tooDeep occurs holds => exact .tooDeep (.field member occurs) holds

theorem blocks_of_obstacle? (h : obstacle? digits depth v = some why) :
    Blocks digits depth v why := by
  have number {i : Int} (h : numberObstacle? digits i = some why) :
      digits < (Decimal.ofNat i.natAbs).length ∧ why = .tooLong digits := by
    rw [numberObstacle?] at h
    split at h
    · next long => exact ⟨long, (Option.some.inj h).symm⟩
    · cases h
  induction depth generalizing v with
  | zero =>
    cases v with
    | int i =>
      obtain ⟨long, rfl⟩ := number h
      exact .number .here long
    | list items =>
      cases h
      exact .tooDeep .here trivial
    | object fields =>
      cases h
      exact .tooDeep .here trivial
    | bytes bs =>
      cases h
      exact .kind (w := .bytes bs) .here trivial
    | foreign =>
      cases h
      exact .kind (w := .foreign) .here trivial
    | _ => cases h
  | succ depth ih =>
    cases v with
    | int i =>
      obtain ⟨long, rfl⟩ := number h
      exact .number .here long
    | list items =>
      rw [obstacle?] at h
      obtain ⟨v, member, found⟩ := exists_of_itemObstacle? h
      exact (ih found).item member
    | object fields =>
      rw [obstacle?] at h
      obtain ⟨e, member, found | found⟩ := exists_of_fieldObstacle? h
      · obtain ⟨k, v⟩ := e
        cases k with
        | int i =>
          obtain ⟨long, rfl⟩ := number found
          exact .name .here (List.mem_map_of_mem member) long
        | bytes bs =>
          cases found
          exact .key (k := .bytes bs) .here (List.mem_map_of_mem member) trivial
        | other kind label =>
          cases found
          exact .key (k := .other kind label) .here (List.mem_map_of_mem member) trivial
        | _ => cases found
      · exact (ih found).field member
    | bytes bs =>
      cases h
      exact .kind (w := .bytes bs) .here trivial
    | foreign =>
      cases h
      exact .kind (w := .foreign) .here trivial
    | _ => cases h

theorem obstacle?_eq_none_of_occurs {n : Nat} (occurs : w.Occurs n v)
    (clear : obstacle? digits depth v = none) : obstacle? digits (depth - n) w = none := by
  induction occurs generalizing depth with
  | here => exact clear
  | item member _ ih =>
    cases depth with
    | zero => cases clear
    | succ depth =>
      rw [obstacle?, itemObstacle?_eq_none_iff] at clear
      rw [Nat.add_sub_add_right]
      exact ih (clear _ member)
  | field member _ ih =>
    cases depth with
    | zero => cases clear
    | succ depth =>
      rw [obstacle?, fieldObstacle?_eq_none_iff] at clear
      rw [Nat.add_sub_add_right]
      exact ih (clear _ member).2

theorem nameObstacle?_eq_none_of_occurs {n : Nat} {fields : List (Name × Value)} {k : Name}
    (occurs : (Value.object fields).Occurs n v) (clear : obstacle? digits depth v = none)
    (named : k ∈ Assoc.keys fields) : nameObstacle? digits k = none := by
  have free := obstacle?_eq_none_of_occurs occurs clear
  obtain ⟨e, member, rfl⟩ := List.mem_map.1 named
  cases inner : depth - n with
  | zero =>
    rw [inner] at free
    cases free
  | succ inner' =>
    rw [inner, obstacle?, fieldObstacle?_eq_none_iff] at free
    exact (free e member).1

/-- A value is written if nothing is in the way, wherever it would stand. -/
theorem obstacle?_eq_none_iff :
    obstacle? digits depth v = none ↔ ∀ why, ¬ Blocks digits depth v why := by
  refine ⟨?_, ?_⟩
  · intro clear why blocks
    cases blocks with
    | @kind n w occurs formless =>
      have free := obstacle?_eq_none_of_occurs occurs clear
      cases w <;> first | exact formless | exact absurd free (by simp [obstacle?])
    | @key n fields k occurs named formless =>
      have written := nameObstacle?_eq_none_of_occurs occurs clear named
      cases k <;> first | exact formless | cases written
    | number occurs long =>
      have free := obstacle?_eq_none_of_occurs occurs clear
      rw [obstacle?, numberObstacle?, if_pos long] at free
      cases free
    | @name n fields i occurs named long =>
      have written := nameObstacle?_eq_none_of_occurs occurs clear named
      rw [nameObstacle?, numberObstacle?, if_pos long] at written
      cases written
    | @tooDeep w occurs holds =>
      have free := obstacle?_eq_none_of_occurs occurs clear
      rw [Nat.sub_self] at free
      cases w <;> first | exact holds | cases free
  · intro none
    cases found : obstacle? digits depth v with
    | none => rfl
    | some why => exact absurd (blocks_of_obstacle? found) (none why)

/-- What is in the way under some limits is in the way under narrower ones. -/
theorem obstacle?_eq_none_of_within {l m : Limits} (within : l.Within m)
    (clear : obstacle? l.digits l.depth v = none) : obstacle? m.digits m.depth v = none := by
  have free := obstacle?_eq_none_iff.1 clear
  refine obstacle?_eq_none_iff.2 ?_
  intro why blocks
  cases blocks with
  | kind occurs formless => exact free _ (.kind occurs formless)
  | key occurs named formless => exact free _ (.key occurs named formless)
  | number occurs long => exact free _ (.number occurs (within.digits.trans_lt long))
  | name occurs named long => exact free _ (.name occurs named (within.digits.trans_lt long))
  | @tooDeep w occurs holds =>
    have inside := obstacle?_eq_none_of_occurs occurs clear
    rw [Nat.sub_eq_zero_of_le within.depth] at inside
    cases w <;> first | exact holds | cases inside

/-- What is in the way of writing an object whose names are texts is in the way of writing one of
its values. -/
theorem blocks_object_iff {fields : List (Name × Value)} (texts : Assoc.OfAttributes fields) :
    Blocks digits (depth + 1) (.object fields) why ↔ ∃ e ∈ fields, Blocks digits depth e.2 why := by
  refine ⟨?_, fun ⟨e, member, blocks⟩ => blocks.field member⟩
  intro blocks
  cases blocks with
  | kind occurs formless =>
    cases occurs with
    | here => exact formless.elim
    | field member inside => exact ⟨_, member, .kind inside formless⟩
  | key occurs named formless =>
    cases occurs with
    | here =>
      have text := texts _ named
      rename_i k
      cases k <;> first | exact formless.elim | exact text.elim
    | field member inside => exact ⟨_, member, .key inside named formless⟩
  | number occurs long =>
    cases occurs with
    | field member inside => exact ⟨_, member, .number inside long⟩
  | name occurs named long =>
    cases occurs with
    | here => exact (texts _ named).elim
    | field member inside => exact ⟨_, member, .name inside named long⟩
  | tooDeep occurs holds =>
    cases occurs with
    | field member inside => exact ⟨_, member, .tooDeep inside holds⟩

theorem not_blocks_text (t : String) : ¬ Blocks digits depth (.text t) why :=
  obstacle?_eq_none_iff.1 (by cases depth <;> rfl) why

/-! ## Sorted values -/

theorem Blocks.sorted (blocks : Blocks digits depth v why) : Blocks digits depth v.sorted why := by
  cases blocks with
  | @kind n w occurs formless =>
    have same : w.sorted = w := by cases w <;> first | rfl | exact formless.elim
    rw [← same]
    exact .kind occurs.sorted (same.symm ▸ formless)
  | key occurs named formless =>
    have inside := occurs.sorted
    rw [Value.sorted, Value.sortedFields_eq] at inside
    refine .key inside ?_ formless
    rw [Assoc.mem_keys_sort, Assoc.keys_mapValues]
    exact named
  | number occurs long => exact .number occurs.sorted long
  | @name n fields i occurs named long =>
    have inside := occurs.sorted
    rw [Value.sorted, Value.sortedFields_eq] at inside
    refine .name inside ?_ long
    rw [Assoc.mem_keys_sort, Assoc.keys_mapValues]
    exact named
  | @tooDeep w occurs holds =>
    refine .tooDeep occurs.sorted ?_
    cases w <;> first | exact holds.elim | exact trivial

theorem exists_object_of_occurs_sorted {n : Nat} {fields : List (Name × Value)}
    (occurs : (Value.object fields).Occurs n v.sorted) :
    ∃ fields', (Value.object fields').Occurs n v ∧
      ∀ k, k ∈ Assoc.keys fields ↔ k ∈ Assoc.keys fields' := by
  obtain ⟨u, found, same⟩ := Value.exists_of_occurs_sorted occurs
  cases u <;> simp only [Value.sorted, reduceCtorEq] at same
  next fields' =>
    obtain rfl := Value.object.inj same
    refine ⟨fields', found, fun k => ?_⟩
    rw [Assoc.mem_keys_sort, Value.sortedFields_eq, Assoc.keys_mapValues]

/-- What is in the way of writing a value with its fields in order is in the way in any order. -/
theorem blocks_sorted : Blocks digits depth v.sorted why ↔ Blocks digits depth v why := by
  refine ⟨?_, Blocks.sorted⟩
  intro blocks
  cases blocks with
  | kind occurs formless =>
    obtain ⟨u, found, rfl⟩ := Value.exists_of_occurs_sorted occurs
    have same : u.sorted = u := by cases u <;> first | rfl | exact formless.elim
    rw [same] at formless ⊢
    exact .kind found formless
  | key occurs named formless =>
    obtain ⟨fields, found, names⟩ := exists_object_of_occurs_sorted occurs
    exact .key found ((names _).1 named) formless
  | number occurs long =>
    obtain ⟨u, found, same⟩ := Value.exists_of_occurs_sorted occurs
    cases u <;> simp only [Value.sorted, reduceCtorEq] at same
    cases same
    exact .number found long
  | name occurs named long =>
    obtain ⟨fields, found, names⟩ := exists_object_of_occurs_sorted occurs
    exact .name found ((names _).1 named) long
  | tooDeep occurs holds =>
    obtain ⟨u, found, rfl⟩ := Value.exists_of_occurs_sorted occurs
    refine .tooDeep found ?_
    cases u <;> first | exact holds.elim | exact trivial

end Json

end RecordSeal
