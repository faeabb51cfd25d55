import Mathlib.Data.Multiset.AddSub
import Mathlib.Data.Multiset.UnionInter
import RecordSeal.Proofs.Settings.Merge
import RecordSeal.Settings.Memory

set_option autoImplicit false

/-! # Reading objects in memory

An object in memory is known by the fields that it is read as and by the places that are met on the
way, each as often as it is met (`Memory.places`). It is read as before while none of these places
changes (`Memory.unchanged`). -/

namespace RecordSeal

/-! ## The entries but one -/

namespace Assoc

variable {κ α β : Type} [BEq κ]

/-- The entries but the one that is found under a key. -/
def others (m : Assoc κ α) (k : κ) : Assoc κ α := m.eraseP fun e => e.1 == k

theorem others_cons (e : κ × α) (m : Assoc κ α) (k : κ) :
    others (e :: m) k = if e.1 == k then m else e :: others m k := by
  rw [others, List.eraseP_cons]
  cases e.1 == k <;> rfl

theorem others_of_get?_eq_none {m : Assoc κ α} {k : κ} (h : m.get? k = none) : m.others k = m := by
  induction m with
  | nil => rfl
  | cons e m ih =>
    obtain ⟨j, a⟩ := e
    rw [get?_cons] at h
    split at h
    · cases h
    · next other => rw [others_cons, if_neg other, ih h]

theorem get?_others [EquivBEq κ] (m : Assoc κ α) {j k : κ} (h : (j == k) = false) :
    (m.others k).get? j = m.get? j := by
  induction m with
  | nil => rfl
  | cons e m ih =>
    obtain ⟨l, a⟩ := e
    rw [others_cons, get?_cons]
    split
    · next same =>
      have other : (l == j) = false := by
        rw [BEq.comm, ← h]
        exact (BEq.congr_right same)
      rw [other]
      rfl
    · rw [get?_cons, ih]

end Assoc

/-! ## Places -/

mutual

/-- The places in a slot, given those in the objects. -/
def Slot.places (placesIn : Nat → Multiset Nat) : Slot → Multiset Nat
  | .object place => placesIn place
  | .list items => placesOfAll placesIn items
  | .leaf .. => 0

/-- The places in slots. -/
def Slot.placesOfAll (placesIn : Nat → Multiset Nat) : List Slot → Multiset Nat
  | [] => 0
  | slot :: rest => slot.places placesIn + placesOfAll placesIn rest

end

namespace Memory

/-- The places in entries, given those in the objects. -/
def placesUnder (placesIn : Nat → Multiset Nat) (entries : Assoc Name Slot) : Multiset Nat :=
  (entries.map fun e => e.2.places placesIn).sum

/-- The places in what stands under a name. -/
def placesAt (placesIn : Nat → Multiset Nat) (entries : Assoc Name Slot) (k : Name) :
    Multiset Nat :=
  match entries.get? k with
  | some slot => slot.places placesIn
  | none => 0

/-- The places that are met in reading the object at a place, each as often as it is met. -/
def places (m : Memory) : Nat → Nat → Multiset Nat
  | 0, _ => 0
  | depth + 1, place => place ::ₘ placesUnder (m.places depth) (m.entries place)

section Entries

variable {placesIn : Nat → Multiset Nat} {entries : Assoc Name Slot} {k : Name} {slot : Slot}

theorem placesUnder_cons (e : Name × Slot) (entries : Assoc Name Slot) :
    placesUnder placesIn (e :: entries) = e.2.places placesIn + placesUnder placesIn entries := by
  simp [placesUnder]

theorem placesUnder_insert (entries : Assoc Name Slot) (k : Name) (slot : Slot) :
    placesUnder placesIn (entries.insert k slot) =
      slot.places placesIn + placesUnder placesIn (entries.others k) := by
  induction entries with
  | nil => simp [Assoc.insert, placesUnder, Assoc.others]
  | cons e entries ih =>
    obtain ⟨j, other⟩ := e
    rw [Assoc.insert, Assoc.others_cons]
    split
    · rw [placesUnder_cons]
    · rw [placesUnder_cons, placesUnder_cons, ih, add_left_comm]

theorem placesUnder_eq (entries : Assoc Name Slot) (k : Name) :
    placesUnder placesIn entries =
      placesAt placesIn entries k + placesUnder placesIn (entries.others k) := by
  unfold placesAt
  cases found : entries.get? k with
  | none => rw [Assoc.others_of_get?_eq_none found, zero_add]
  | some slot => rw [← placesUnder_insert, Assoc.insert_eq_self found]

theorem placesAt_le (entries : Assoc Name Slot) (k : Name) :
    placesAt placesIn entries k ≤ placesUnder placesIn entries := by
  rw [placesUnder_eq entries k]
  exact Multiset.le_add_right _ _

theorem placesAt_of_object (placesIn : Nat → Multiset Nat) {p : Nat}
    (found : entries.get? k = some (.object p)) : placesAt placesIn entries k = placesIn p := by
  simp only [placesAt, found, Slot.places]

end Entries

/-! ## What an object is read as -/

section Fields

variable {fieldsAt : Nat → Option Record} {entries : Assoc Name Slot} {fields' : Record}

theorem fields_cons (k : Name) (slot : Slot) (entries : Assoc Name Slot) :
    fields fieldsAt ((k, slot) :: entries) =
      (slot.value fieldsAt).bind fun v => (fields fieldsAt entries).map ((k, v) :: ·) := rfl

theorem fields_cons_eq_some {k : Name} {slot : Slot}
    (h : fields fieldsAt ((k, slot) :: entries) = some fields') :
    ∃ v rest, slot.value fieldsAt = some v ∧ fields fieldsAt entries = some rest ∧
      fields' = (k, v) :: rest := by
  rw [fields_cons] at h
  obtain ⟨v, hv, h⟩ := Option.bind_eq_some_iff.1 h
  obtain ⟨rest, hrest, rfl⟩ := Option.map_eq_some_iff.1 h
  exact ⟨v, rest, hv, hrest, rfl⟩

theorem keys_of_fields (h : fields fieldsAt entries = some fields') :
    Assoc.keys fields' = entries.keys := by
  induction entries generalizing fields' with
  | nil =>
    cases h
    rfl
  | cons e entries ih =>
    obtain ⟨v, rest, -, hrest, rfl⟩ := fields_cons_eq_some h
    exact congrArg (e.1 :: ·) (ih hrest)

theorem get?_of_fields (h : fields fieldsAt entries = some fields') (k : Name) :
    (entries.get? k).map (·.value fieldsAt) = (Assoc.get? fields' k).map some := by
  induction entries generalizing fields' with
  | nil =>
    cases h
    rfl
  | cons e entries ih =>
    obtain ⟨v, rest, hv, hrest, rfl⟩ := fields_cons_eq_some h
    obtain ⟨j, slot⟩ := e
    rw [Assoc.get?_cons, Assoc.get?_cons]
    split
    · exact congrArg some hv
    · exact ih hrest

theorem mem_of_fields (h : fields fieldsAt entries = some fields') {k : Name} {slot : Slot}
    (mem : (k, slot) ∈ entries) : ∃ v, (k, v) ∈ fields' ∧ slot.value fieldsAt = some v := by
  induction entries generalizing fields' with
  | nil => cases mem
  | cons e entries ih =>
    obtain ⟨v, rest, hv, hrest, rfl⟩ := fields_cons_eq_some h
    rcases List.mem_cons.1 mem with rfl | mem
    · exact ⟨v, List.mem_cons_self .., hv⟩
    · obtain ⟨w, hw, value⟩ := ih hrest mem
      exact ⟨w, List.mem_cons_of_mem _ hw, value⟩

theorem fields_congr {other : Nat → Option Record}
    (same : ∀ e ∈ entries, e.2.value other = e.2.value fieldsAt) :
    fields other entries = fields fieldsAt entries := by
  induction entries with
  | nil => rfl
  | cons e entries ih =>
    obtain ⟨first, rest⟩ := List.forall_mem_cons.1 same
    rw [fields_cons, fields_cons, first, ih rest]

/-- An entry that is set gives a field that is set, if the other entries are read as before. -/
theorem fields_insert {other : Nat → Option Record} {k : Name} {slot : Slot} {v : Value}
    (h : fields fieldsAt entries = some fields') (value : slot.value other = some v)
    (same : ∀ e ∈ entries.others k, e.2.value other = e.2.value fieldsAt) :
    fields other (entries.insert k slot) = some (Assoc.insert fields' k v) := by
  induction entries generalizing fields' with
  | nil =>
    cases h
    rw [Assoc.insert, Assoc.insert, fields_cons, value]
    rfl
  | cons e entries ih =>
    obtain ⟨j, first⟩ := e
    obtain ⟨w, rest, hw, hrest, rfl⟩ := fields_cons_eq_some h
    rw [Assoc.others_cons] at same
    rw [Assoc.insert, Assoc.insert]
    by_cases found : (j == k) = true
    · rw [if_pos found] at same
      rw [if_pos found, if_pos found, fields_cons, value, fields_congr same, hrest]
      rfl
    · rw [if_neg found] at same
      obtain ⟨here, below⟩ := List.forall_mem_cons.1 same
      rw [if_neg found, if_neg found, fields_cons, ih hrest below, here, hw]
      rfl

end Fields

theorem read_succ_eq_some {m : Memory} {depth place : Nat} {t : Record}
    (h : m.read (depth + 1) place = some t) :
    ∃ entries, m[place]? = some entries ∧ fields (m.read depth) entries = some t :=
  Option.bind_eq_some_iff.1 h

theorem entries_eq {m : Memory} {place : Nat} {entries : Assoc Name Slot}
    (h : m[place]? = some entries) : m.entries place = entries := by
  rw [Memory.entries, List.getD_eq_getElem?_getD, h, Option.getD_some]

theorem places_succ {m : Memory} {place : Nat} {entries : Assoc Name Slot}
    (h : m[place]? = some entries) (depth : Nat) :
    m.places (depth + 1) place = place ::ₘ placesUnder (m.places depth) entries := by
  rw [places, entries_eq h]

end Memory

/-! ## What reading depends on -/

section Agree

variable {fieldsAt other : Nat → Option Record} {placesIn places' : Nat → Multiset Nat}
  {P : Nat → Prop}

mutual

/-- A slot is read as before if the objects in it are. -/
theorem Slot.value_congr (same : ∀ q, (∀ x ∈ placesIn q, P x) → other q = fieldsAt q) :
    ∀ slot : Slot, (∀ x ∈ slot.places placesIn, P x) → slot.value other = slot.value fieldsAt
  | .object q, h => congrArg (Option.map Value.object) (same q h)
  | .list items, h => congrArg (Option.map Value.list) (values_congr same items h)
  | .leaf .., _ => rfl

theorem Slot.values_congr (same : ∀ q, (∀ x ∈ placesIn q, P x) → other q = fieldsAt q) :
    ∀ slots : List Slot, (∀ x ∈ placesOfAll placesIn slots, P x) →
      values other slots = values fieldsAt slots
  | [], _ => rfl
  | slot :: rest, h => by
    have first := value_congr same slot fun x hx => h x (Multiset.mem_add.2 (.inl hx))
    have others := values_congr same rest fun x hx => h x (Multiset.mem_add.2 (.inr hx))
    rw [values, values, first, others]

end

mutual

theorem Slot.places_congr (same : ∀ q, (∀ x ∈ placesIn q, P x) → places' q = placesIn q) :
    ∀ slot : Slot, (∀ x ∈ slot.places placesIn, P x) → slot.places places' = slot.places placesIn
  | .object q, h => same q h
  | .list items, h => placesOfAll_congr same items h
  | .leaf .., _ => rfl

theorem Slot.placesOfAll_congr (same : ∀ q, (∀ x ∈ placesIn q, P x) → places' q = placesIn q) :
    ∀ slots : List Slot, (∀ x ∈ placesOfAll placesIn slots, P x) →
      placesOfAll places' slots = placesOfAll placesIn slots
  | [], _ => rfl
  | slot :: rest, h => by
    have first := places_congr same slot fun x hx => h x (Multiset.mem_add.2 (.inl hx))
    have others := placesOfAll_congr same rest fun x hx => h x (Multiset.mem_add.2 (.inr hx))
    rw [placesOfAll, placesOfAll, first, others]

end

end Agree

namespace Memory

theorem mem_placesUnder {placesIn : Nat → Multiset Nat} {entries : Assoc Name Slot}
    {e : Name × Slot} (mem : e ∈ entries) {x : Nat} (hx : x ∈ e.2.places placesIn) :
    x ∈ placesUnder placesIn entries := by
  obtain ⟨before, after, rfl⟩ := List.append_of_mem mem
  simp [placesUnder, hx]

theorem mem_placesUnder_of_get? {placesIn : Nat → Multiset Nat} {entries : Assoc Name Slot}
    {k : Name} {slot : Slot} (found : entries.get? k = some slot) {x : Nat}
    (hx : x ∈ slot.places placesIn) : x ∈ placesUnder placesIn entries := by
  obtain ⟨j, -, mem⟩ := Assoc.mem_of_get? found
  exact mem_placesUnder mem hx

variable {m m' : Memory}

theorem entries_unchanged {place : Nat} (same : m'[place]? = m[place]?) :
    m'.entries place = m.entries place := by
  rw [entries, entries, List.getD_eq_getElem?_getD, List.getD_eq_getElem?_getD, same]

/-- An object is read as before, over the same places, if none of these has changed. -/
theorem unchanged {depth place : Nat} (same : ∀ x ∈ m.places depth place, m'[x]? = m[x]?) :
    m'.read depth place = m.read depth place ∧ m'.places depth place = m.places depth place := by
  induction depth generalizing place with
  | zero => exact ⟨rfl, rfl⟩
  | succ depth ih =>
    have here : m'[place]? = m[place]? := same place (Multiset.mem_cons_self ..)
    have there := entries_unchanged here
    have inside {e : Name × Slot} (mem : e ∈ m.entries place) (x : Nat)
        (hx : x ∈ e.2.places (m.places depth)) : m'[x]? = m[x]? :=
      same x (Multiset.mem_cons_of_mem (mem_placesUnder mem hx))
    constructor
    · rw [read, read, here]
      cases found : m[place]? with
      | none => rfl
      | some table =>
        refine fields_congr fun e mem => ?_
        rw [← entries_eq found] at mem
        exact Slot.value_congr (fun q h => (ih h).1) e.2 (inside mem)
    · rw [places, places, there]
      refine congrArg (place ::ₘ ·) (congrArg List.sum (List.map_congr_left fun e mem => ?_))
      exact Slot.places_congr (fun q h => (ih h).2) e.2 (inside mem)

theorem value_unchanged {depth : Nat} {slot : Slot}
    (same : ∀ x ∈ slot.places (m.places depth), m'[x]? = m[x]?) :
    slot.value (m'.read depth) = slot.value (m.read depth) :=
  Slot.value_congr (fun _ h => (unchanged h).1) slot same

theorem places_unchanged {depth : Nat} {slot : Slot}
    (same : ∀ x ∈ slot.places (m.places depth), m'[x]? = m[x]?) :
    slot.places (m'.places depth) = slot.places (m.places depth) :=
  Slot.places_congr (fun _ h => (unchanged h).2) slot same

theorem placesUnder_unchanged {depth : Nat} {entries : Assoc Name Slot}
    (same : ∀ x ∈ placesUnder (m.places depth) entries, m'[x]? = m[x]?) :
    placesUnder (m'.places depth) entries = placesUnder (m.places depth) entries :=
  congrArg List.sum (List.map_congr_left fun _ mem =>
    places_unchanged fun x hx => same x (mem_placesUnder mem hx))

/-! ## Setting an entry -/

theorem getElem?_put_of_ne {place x : Nat} (other : x ≠ place) (m : Memory) (k : Name)
    (slot : Slot) : (m.put place k slot)[x]? = m[x]? :=
  List.getElem?_modify_ne _ m (Ne.symm other)

theorem getElem?_put {place : Nat} {table : Assoc Name Slot} (here : m[place]? = some table)
    (k : Name) (slot : Slot) : (m.put place k slot)[place]? = some (table.insert k slot) := by
  rw [put, List.getElem?_modify_eq, here]
  rfl

end Memory

end RecordSeal
