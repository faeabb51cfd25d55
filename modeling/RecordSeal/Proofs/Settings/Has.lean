import RecordSeal.Proofs.Settings.Memory

set_option autoImplicit false

/-! # Merging what is there already

An object has what another one has if under each of its names it has the same slot, or an object of
which this is so again (`Memory.Has`). Merging what an object has changes nothing
(`Memory.merge_of_has`). How many calls are allowed only matters to a merge that runs out of them
(`Memory.merge_of_le`). -/

namespace RecordSeal.Memory

variable {m m' : Memory} {depth target source : Nat} {k : Name} {slot : Slot}
  {table : Assoc Name Slot} {mergeObjects : Nat → Nat → Memory → Outcome}

/-! ## Merging an entry -/

/-- Whether there is an object under a name and an object to merge into it. -/
def AreObjects (table : Assoc Name Slot) (k : Name) (slot : Slot) : Prop :=
  ∃ p q, table.get? k = some (.object p) ∧ slot = .object q

theorem mergeEntry_of_objects {p q : Nat}
    (found : Assoc.get? (m.entries target) k = some (.object p)) :
    mergeEntry mergeObjects target k (.object q) m = mergeObjects p q m := by
  simp only [mergeEntry, found]

theorem mergeEntry_of_not_areObjects (plain : ¬ AreObjects (m.entries target) k slot) :
    mergeEntry mergeObjects target k slot m = (.ok (), m.put target k slot) := by
  unfold mergeEntry
  split
  · next p q found => exact absurd ⟨p, q, found, rfl⟩ plain
  · rfl

/-! ## Having what another object has -/

/-- Whether a table has an entry: the same slot, or an object that has what the given one has. -/
def Holds (has : Nat → Nat → Prop) (table : Assoc Name Slot) (e : Name × Slot) : Prop :=
  match table.get? e.1, e.2 with
  | some (.object p), .object q => has p q
  | found, slot => found = some slot

/-- Whether an object has all that another one has, down to a depth. -/
def Has (m : Memory) : Nat → Nat → Nat → Prop
  | 0, _, _ => False
  | depth + 1, x, y => ∀ e ∈ m.entries y, Holds (m.Has depth) (m.entries x) e

section Holds

variable {has : Nat → Nat → Prop}

theorem holds_objects {p q : Nat} (found : table.get? k = some (.object p)) :
    Holds has table (k, .object q) ↔ has p q := by
  simp only [Holds, found]

theorem holds_of_not_areObjects (plain : ¬ AreObjects table k slot) :
    Holds has table (k, slot) ↔ table.get? k = some slot := by
  unfold Holds
  split
  · next p q found is => exact absurd ⟨p, q, found, is⟩ plain
  · rfl

theorem holds_of_found (found : table.get? k = some slot)
    (self : ∀ q, slot = .object q → has q q) : Holds has table (k, slot) := by
  by_cases both : AreObjects table k slot
  · obtain ⟨p, q, found', rfl⟩ := both
    rw [found] at found'
    cases found'
    exact (holds_objects found).2 (self p rfl)
  · exact (holds_of_not_areObjects both).2 found

theorem Holds.imp {has' : Nat → Nat → Prop} (h : Holds has table (k, slot))
    (objects : ∀ p q, table.get? k = some (.object p) → slot = .object q → has p q → has' p q) :
    Holds has' table (k, slot) := by
  by_cases both : AreObjects table k slot
  · obtain ⟨p, q, found, rfl⟩ := both
    exact (holds_objects found).2 (objects p q found rfl ((holds_objects found).1 h))
  · exact (holds_of_not_areObjects both).2 ((holds_of_not_areObjects both).1 h)

end Holds

/-- What an object has depends on the places in the two objects. -/
theorem Has.unchanged {x y : Nat} (h : m.Has depth x y)
    (same : ∀ z ∈ m.places depth x, m'[z]? = m[z]?)
    (same' : ∀ z ∈ m.places depth y, m'[z]? = m[z]?) : m'.Has depth x y := by
  induction depth generalizing x y with
  | zero => exact h
  | succ depth ih =>
    rw [places] at same same'
    rw [Has, entries_unchanged (same x (Multiset.mem_cons_self ..)),
      entries_unchanged (same' y (Multiset.mem_cons_self ..))]
    rintro ⟨k, slot⟩ mem
    refine (h (k, slot) mem).imp fun p q found is has => ih has (fun z hz => ?_) fun z hz => ?_
    · exact same z (Multiset.mem_cons_of_mem (mem_placesUnder_of_get? found hz))
    · subst is
      exact same' z (Multiset.mem_cons_of_mem (mem_placesUnder mem hz))

theorem distinct_of_fields {fieldsAt : Nat → Option Record} {t : Record}
    (reads : fields fieldsAt table = some t) (nested : Value.IsNested (.object t)) :
    table.Distinct := by
  rw [Assoc.Distinct, ← keys_of_fields reads]
  exact nested.distinct

theorem has_self {place : Nat} {t : Record} (reads : m.read depth place = some t)
    (nested : Value.IsNested (.object t)) : m.Has depth place place := by
  induction depth generalizing place t with
  | zero => cases reads
  | succ depth ih =>
    obtain ⟨table, here, reads⟩ := read_succ_eq_some reads
    rw [Has, entries_eq here]
    rintro ⟨k, slot⟩ mem
    have found := Assoc.get?_of_mem (distinct_of_fields reads nested) mem
    refine holds_of_found found fun q is => ?_
    subst is
    obtain ⟨v, hv, value⟩ := mem_of_fields reads mem
    obtain ⟨t', inner, rfl⟩ := Option.map_eq_some_iff.1 value
    exact ih inner (nested.of_mem hv)

/-! ## Merging what an object has -/

theorem put_eq_self {place : Nat} (found : (m.entries place).get? k = some slot) :
    m.put place k slot = m := by
  refine List.ext_getElem? fun x => ?_
  by_cases other : x = place
  · subst other
    cases here : m[x]? with
    | none =>
      rw [entries, List.getD_eq_getElem?_getD, here] at found
      cases found
    | some table =>
      rw [entries_eq here] at found
      rw [getElem?_put here, Assoc.insert_eq_self found]
  · exact getElem?_put_of_ne other m k slot

theorem mergeEntries_of_same
    (same : ∀ e ∈ m.entries source, mergeEntry mergeObjects target e.1 e.2 m = (.ok (), m))
    (left : Nat) :
    mergeEntries mergeObjects target source (m.entries source).length left m = (.ok (), m) := by
  induction left with
  | zero => rw [mergeEntries, if_pos rfl]
  | succ left ih =>
    rw [mergeEntries, if_pos rfl]
    split
    · next k slot next => simp only [same _ (List.mem_of_getElem? next), ih]
    · rfl

theorem merge_of_has {calls : Nat} (has : m.Has depth target source) (deep : depth ≤ calls) :
    merge calls target source m = (.ok (), m) := by
  induction calls generalizing depth target source with
  | zero =>
    obtain rfl : depth = 0 := Nat.le_zero.1 deep
    exact has.elim
  | succ calls ih =>
    cases depth with
    | zero => exact has.elim
    | succ depth =>
      refine mergeEntries_of_same (fun e mem => ?_) _
      obtain ⟨k, slot⟩ := e
      have holds := has (k, slot) mem
      by_cases both : AreObjects (m.entries target) k slot
      · obtain ⟨p, q, found, rfl⟩ := both
        rw [mergeEntry_of_objects found]
        exact ih ((holds_objects found).1 holds) (Nat.le_of_succ_le_succ deep)
      · rw [mergeEntry_of_not_areObjects both,
          put_eq_self ((holds_of_not_areObjects both).1 holds)]

/-! ## More calls -/

section Calls

variable {more : Nat → Nat → Memory → Outcome}

theorem mergeEntry_congr
    (same : ∀ p q m, (mergeObjects p q m).1 ≠ .error .tooDeep → more p q m = mergeObjects p q m)
    (reached : (mergeEntry mergeObjects target k slot m).1 ≠ .error .tooDeep) :
    mergeEntry more target k slot m = mergeEntry mergeObjects target k slot m := by
  by_cases objects : AreObjects (m.entries target) k slot
  · obtain ⟨p, q, found, rfl⟩ := objects
    rw [mergeEntry_of_objects found] at reached ⊢
    rw [mergeEntry_of_objects found, same p q m reached]
  · rw [mergeEntry_of_not_areObjects objects, mergeEntry_of_not_areObjects objects]

theorem mergeEntries_congr {size : Nat}
    (same : ∀ p q m, (mergeObjects p q m).1 ≠ .error .tooDeep → more p q m = mergeObjects p q m)
    (left : Nat) (m : Memory)
    (reached : (mergeEntries mergeObjects target source size left m).1 ≠ .error .tooDeep) :
    mergeEntries more target source size left m =
      mergeEntries mergeObjects target source size left m := by
  induction left generalizing m with
  | zero => rfl
  | succ left ih =>
    rw [mergeEntries] at reached
    rw [mergeEntries, mergeEntries]
    split
    · next sized =>
      rw [if_pos sized] at reached
      split
      · next k slot next =>
        simp only [next] at reached
        have step : mergeEntry more target k slot m = mergeEntry mergeObjects target k slot m := by
          -- An entry for which the calls do not suffice ends the whole merge.
          refine mergeEntry_congr same fun ends => reached ?_
          split
          · next ran => rw [ran] at ends; cases ends
          · next ran => rwa [ran] at ends
        rw [step]
        split
        · next m' ran =>
          rw [ran] at reached
          exact ih m' reached
        · rfl
      · rfl
    · rfl

/-- A merge that the calls suffice for goes the same way with more of them. -/
theorem merge_of_le {calls calls' : Nat} (le : calls ≤ calls')
    (reached : (merge calls target source m).1 ≠ .error .tooDeep) :
    merge calls' target source m = merge calls target source m := by
  induction calls generalizing calls' m target source with
  | zero => exact absurd rfl reached
  | succ calls ih =>
    cases calls' with
    | zero => cases le
    | succ calls' =>
      exact mergeEntries_congr (fun p q m => ih (Nat.le_of_succ_le_succ le)) _ m reached

end Calls

end RecordSeal.Memory
