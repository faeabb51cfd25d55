import RecordSeal.Proofs.Settings.Has

set_option autoImplicit false

/-! # What merging in place leaves

A merge writes to the objects of the target that have names in common with the source, and to no
others (`Memory.written`). If no object of the target is met twice and none of them is in the
source, every entry finds what stood under its name as it was before the merge, and the target is
read afterwards as merging fields would have it (`Memory.merges_merge`). The two share objects then,
and yet merging the source a second time changes nothing (`Memory.merge_again`). -/

namespace RecordSeal.Memory

variable {m m' m₁ : Memory} {depth target source : Nat} {k : Name} {slot : Slot} {v : Value}
  {table rest : Assoc Name Slot} {t s : Record} {mergeObjects : Nat → Nat → Memory → Outcome}

/-! ## Fields of objects -/

theorem value_eq_object {fieldsAt : Nat → Option Record} :
    slot.value fieldsAt = some (.object t) ↔ ∃ p, slot = .object p ∧ fieldsAt p = some t := by
  cases slot with
  | object p => simp [Slot.value]
  | list items => simp [Slot.value]
  | leaf v single =>
    rw [Slot.value, Option.some.injEq]
    constructor
    · rintro rfl
      cases single
    · rintro ⟨p, is, -⟩
      cases is

theorem exists_object_of_fields {fieldsAt : Nat → Option Record}
    (reads : fields fieldsAt table = some t) {p : Nat} (found : table.get? k = some (.object p)) :
    ∃ t', t.get? k = some (.object t') ∧ fieldsAt p = some t' := by
  have stands := get?_of_fields reads k
  rw [found] at stands
  obtain ⟨w, hw, value⟩ := Option.map_eq_some_iff.1 stands.symm
  obtain ⟨t', inner, rfl⟩ := Option.map_eq_some_iff.1 value.symm
  exact ⟨t', hw, inner⟩

theorem mergeValue_of_not_areObjects {fieldsAt : Nat → Option Record}
    (reads : fields fieldsAt table = some t) (given : slot.value fieldsAt = some v)
    (plain : ¬ AreObjects table k slot) : Settings.mergeValue (t.get? k) v = v := by
  by_cases isObject : ∃ fields', v = .object fields'
  · obtain ⟨fields', rfl⟩ := isObject
    obtain ⟨q, rfl, -⟩ := value_eq_object.1 given
    refine Settings.mergeValue_of_no_object (fun t' is => plain ?_) _
    have stands := get?_of_fields reads k
    rw [is] at stands
    obtain ⟨other, found, value⟩ := Option.map_eq_some_iff.1 stands
    obtain ⟨p, rfl, -⟩ := value_eq_object.1 value
    exact ⟨p, q, found, rfl⟩
  · refine Settings.mergeValue_plain ?_ _
    cases v with
    | object fields' => exact absurd ⟨fields', rfl⟩ isObject
    | _ => rfl

/-! ## What is written to -/

/-- The places that merging an entry with a given name may write to. -/
def written (m : Memory) (depth target : Nat) (k : Name) : Multiset Nat :=
  target ::ₘ placesAt (m.places depth) (m.entries target) k

theorem written_le_places : m.written depth target k ≤ m.places (depth + 1) target := by
  rw [written, places]
  exact Multiset.cons_le_cons _ (placesAt_le _ k)

/-- Whether one memory is what merging given entries into an object of another one leaves: the
object is read as given fields, only what may be written to has changed, and the object has all the
entries. -/
structure Merged (m m' : Memory) (depth target : Nat) (rest : Assoc Name Slot) (t : Record) :
    Prop where
  read : m'.read (depth + 1) target = some t
  places : m'.places (depth + 1) target ≤
    m.places (depth + 1) target + placesUnder (m.places depth) rest
  same : ∀ x, (∀ e ∈ rest, x ∉ m.written depth target e.1) → m'[x]? = m[x]?
  others : ∀ k, (∀ e ∈ rest, (e.1 == k) = false) →
    (m'.entries target).get? k = (m.entries target).get? k
  holds : ∀ e ∈ rest, Holds (m'.Has depth) (m'.entries target) e

/-- Where a merge stands that has given entries still to go through: their places are among given
ones, which are none that it writes to, and what it writes to under one name is found under that
name alone and once. -/
structure Ready (m : Memory) (depth target : Nat) (given : Multiset Nat) (rest : Assoc Name Slot)
    (t s : Record) : Prop where
  below : m.read (depth + 1) target = some t
  above : fields (m.read depth) rest = some s
  distinct : rest.Distinct
  nested : ∀ e ∈ s, e.2.IsNested
  inside : ∀ x ∈ placesUnder (m.places depth) rest, x ∈ given
  once : ∀ e ∈ rest, (m.written depth target e.1).Nodup
  alone : ∀ e ∈ rest, ∀ x ∈ m.written depth target e.1,
    x ∉ placesUnder (m.places depth) ((m.entries target).others e.1)
  apart : ∀ e ∈ rest, ∀ x ∈ m.written depth target e.1, x ∉ given

/-! ## One entry -/

/-- A change to what stands under one name, and to nothing that is met under the others. -/
theorem Merged.of_entry {slot' : Slot} (here : m[target]? = some table)
    (reads : fields (m.read depth) table = some t)
    (alone : ∀ x ∈ m.written depth target k, x ∉ placesUnder (m.places depth) (table.others k))
    (there : m'[target]? = some (table.insert k slot'))
    (value : slot'.value (m'.read depth) = some v)
    (places : slot'.places (m'.places depth) ≤
      placesAt (m.places depth) table k + slot.places (m.places depth))
    (same : ∀ x ∉ m.written depth target k, m'[x]? = m[x]?)
    (holds : Holds (m'.Has depth) (table.insert k slot') (k, slot)) :
    Merged m m' depth target [(k, slot)] (t.insert k v) := by
  have others (x : Nat) (hx : x ∈ placesUnder (m.places depth) (table.others k)) :
      m'[x]? = m[x]? := same x fun mem => alone x mem hx
  constructor
  · rw [Memory.read, there]
    refine fields_insert reads value fun e mem => ?_
    exact value_unchanged fun x hx => others x (mem_placesUnder mem hx)
  · rw [places_succ there, places_succ here, placesUnder_insert, placesUnder_unchanged others,
      placesUnder_eq table k, placesUnder_cons, Multiset.cons_add, add_right_comm]
    refine Multiset.cons_le_cons _ (add_le_add_left ?_ _)
    simpa [placesUnder] using places
  · exact fun x hx => same x (by simpa using hx)
  · intro j hj
    rw [entries_eq there, entries_eq here, Assoc.get?_insert, if_neg (by simpa using hj)]
  · rw [List.forall_mem_singleton, entries_eq there]
    exact holds

/-- Whether an operation on two objects merges the second one into the first one, if no object in
the first one is met twice or is in the second one. -/
def Merges (depth : Nat) (mergeObjects : Nat → Nat → Memory → Outcome) : Prop :=
  ∀ ⦃m : Memory⦄ ⦃target source : Nat⦄ ⦃t s : Record⦄, m.read depth target = some t →
    m.read depth source = some s → (m.places depth target).Nodup →
    (∀ x ∈ m.places depth target, x ∉ m.places depth source) → Value.IsNested (.object s) →
    ∃ m', mergeObjects target source m = (.ok (), m') ∧
      m'.read depth target = some (Settings.merge t s) ∧
      m'.places depth target ≤ m.places depth target + m.places depth source ∧
      (∀ x ∉ m.places depth target, m'[x]? = m[x]?) ∧ m'.Has depth target source

section Entry

variable {given : Multiset Nat}

theorem Ready.slot_inside (ready : Ready m depth target given ((k, slot) :: rest) t s) {x : Nat}
    (mem : x ∈ slot.places (m.places depth)) : x ∈ given :=
  ready.inside x (mem_placesUnder (List.mem_cons_self ..) mem)

theorem Ready.rest_inside (ready : Ready m depth target given ((k, slot) :: rest) t s) {x : Nat}
    (mem : x ∈ placesUnder (m.places depth) rest) : x ∈ given := by
  refine ready.inside x ?_
  rw [placesUnder_cons]
  exact Multiset.mem_add.2 (.inr mem)

theorem Ready.merged_put (ready : Ready m depth target given ((k, slot) :: rest) t ((k, v) :: s))
    (value : slot.value (m.read depth) = some v) :
    Merged m (m.put target k slot) depth target [(k, slot)] (t.insert k v) := by
  obtain ⟨table, here, reads⟩ := read_succ_eq_some ready.below
  have alone := ready.alone _ (List.mem_cons_self ..)
  rw [entries_eq here] at alone
  have same (x : Nat) (other : x ≠ target) : (m.put target k slot)[x]? = m[x]? :=
    getElem?_put_of_ne other m k slot
  have kept (x : Nat) (hx : x ∈ slot.places (m.places depth)) :
      (m.put target k slot)[x]? = m[x]? := by
    refine same x ?_
    rintro rfl
    exact ready.apart _ (List.mem_cons_self ..) x (Multiset.mem_cons_self ..)
      (ready.slot_inside hx)
  refine Merged.of_entry here reads alone (getElem?_put here k slot) ?_ ?_ (fun x hx => ?_) ?_
  · rw [value_unchanged kept, value]
  · rw [places_unchanged kept]
    exact Multiset.le_add_left _ _
  · exact same x fun is => hx (is ▸ Multiset.mem_cons_self ..)
  · refine holds_of_found (by rw [Assoc.get?_insert, if_pos (BEq.refl k)]) fun q is => ?_
    subst is
    obtain ⟨s', above, rfl⟩ := Option.map_eq_some_iff.1 value
    exact has_self ((unchanged kept).1.trans above) (ready.nested _ (List.mem_cons_self ..))

/-- An object under the name of an entry takes in the object that is given. -/
theorem Ready.merged_inner {p q : Nat} {s' : Record}
    (ready : Ready m depth target given ((k, .object q) :: rest) t ((k, .object s') :: s))
    (merges : Merges depth mergeObjects) (above : m.read depth q = some s')
    (found : (m.entries target).get? k = some (.object p)) :
    ∃ m', mergeObjects p q m = (.ok (), m') ∧ Merged m m' depth target [(k, .object q)]
      (t.insert k (Settings.mergeValue (t.get? k) (.object s'))) := by
  obtain ⟨table, here, reads⟩ := read_succ_eq_some ready.below
  rw [entries_eq here] at found
  obtain ⟨t', stands, inner⟩ := exists_object_of_fields reads found
  have writes : m.written depth target k = target ::ₘ m.places depth p := by
    rw [written, entries_eq here, placesAt_of_object _ found]
  have once := ready.once _ (List.mem_cons_self ..)
  have alone := ready.alone _ (List.mem_cons_self ..)
  have apart := ready.apart _ (List.mem_cons_self ..)
  rw [writes, Multiset.nodup_cons] at once
  rw [entries_eq here] at alone
  rw [writes] at apart
  obtain ⟨m', ran, read, places, same, has⟩ := merges inner above once.2
    (fun x hx mem => apart x (Multiset.mem_cons_of_mem hx) (ready.slot_inside mem))
    (ready.nested _ (List.mem_cons_self ..))
  rw [stands, Settings.mergeValue_objects]
  have there : m'[target]? = some (table.insert k (.object p)) := by
    rw [same target once.1, here, Assoc.insert_eq_self found]
  refine ⟨m', ran, Merged.of_entry here reads alone there ?_ ?_ (fun x hx => ?_) ?_⟩
  · rw [Slot.value, read]
    rfl
  · rw [placesAt_of_object _ found]
    exact places
  · rw [writes] at hx
    exact same x fun mem => hx (Multiset.mem_cons_of_mem mem)
  · rw [Assoc.insert_eq_self found]
    exact (holds_objects found).2 has

theorem Merges.mergeEntry (merges : Merges depth mergeObjects)
    (ready : Ready m depth target given ((k, slot) :: rest) t ((k, v) :: s))
    (value : slot.value (m.read depth) = some v) :
    ∃ m', Memory.mergeEntry mergeObjects target k slot m = (.ok (), m') ∧
      Merged m m' depth target [(k, slot)] (t.insert k (Settings.mergeValue (t.get? k) v)) := by
  by_cases both : AreObjects (m.entries target) k slot
  · obtain ⟨p, q, found, rfl⟩ := both
    obtain ⟨s', above, rfl⟩ := Option.map_eq_some_iff.1 value
    rw [mergeEntry_of_objects found]
    exact ready.merged_inner merges above found
  · obtain ⟨table, here, reads⟩ := read_succ_eq_some ready.below
    refine ⟨_, mergeEntry_of_not_areObjects both, ?_⟩
    rw [entries_eq here] at both
    rw [mergeValue_of_not_areObjects reads value both]
    exact ready.merged_put value

end Entry

/-! ## One entry after another -/

section Step

variable {given : Multiset Nat} {t₁ t' : Record}

/-- Merging an entry leaves the given places as they are. -/
theorem Ready.given_kept (ready : Ready m depth target given ((k, slot) :: rest) t s)
    (first : Merged m m₁ depth target [(k, slot)] t₁) {x : Nat} (mem : x ∈ given) :
    m₁[x]? = m[x]? :=
  first.same x (List.forall_mem_singleton.2 fun writes =>
    ready.apart _ (List.mem_cons_self ..) x writes mem)

theorem Ready.written_eq (ready : Ready m depth target given ((k, slot) :: rest) t s)
    (first : Merged m m₁ depth target [(k, slot)] t₁) {e : Name × Slot} (he : e ∈ rest) :
    m₁.written depth target e.1 = m.written depth target e.1 := by
  have other : (k == e.1) = false := ready.distinct.head (List.mem_map_of_mem he)
  rw [written, written, placesAt, placesAt, first.others e.1 (by simpa using other)]
  split
  · next slot' found =>
    refine congrArg (target ::ₘ ·) (places_unchanged fun x hx => first.same x ?_)
    refine List.forall_mem_singleton.2 fun mem => ready.alone _ (List.mem_cons_self ..) x mem ?_
    have beside : ((m.entries target).others k).get? e.1 = some slot' := by
      rw [Assoc.get?_others _ (by rw [BEq.comm, other]), found]
    exact mem_placesUnder_of_get? beside hx
  · rfl

/-- What is met under the other names after an entry has been merged was there or came with it. -/
theorem Merged.mem_others {j : Name} (first : Merged m m₁ depth target [(k, slot)] t₁)
    (same : m₁.written depth target j = m.written depth target j) {x : Nat}
    (mem : x ∈ placesUnder (m₁.places depth) ((m₁.entries target).others j)) :
    x ∈ placesUnder (m.places depth) ((m.entries target).others j) ∨
      x ∈ slot.places (m.places depth) := by
  have le := first.places
  have split (w : Memory) : w.places (depth + 1) target =
      w.written depth target j + placesUnder (w.places depth) ((w.entries target).others j) := by
    rw [Memory.places, written, Multiset.cons_add, ← placesUnder_eq]
  rw [split, split, same, placesUnder_cons, add_assoc, Multiset.add_le_add_iff_left] at le
  have mem := Multiset.mem_of_le le mem
  simpa [placesUnder] using mem

/-- An entry that has been merged leaves the others to merge. -/
theorem Ready.step (ready : Ready m depth target given ((k, slot) :: rest) t ((k, v) :: s))
    (first : Merged m m₁ depth target [(k, slot)] t₁) : Ready m₁ depth target given rest t₁ s := by
  have kept (x : Nat) (hx : x ∈ placesUnder (m.places depth) rest) : m₁[x]? = m[x]? :=
    ready.given_kept first (ready.rest_inside hx)
  obtain ⟨w, others, -, above, is⟩ := fields_cons_eq_some ready.above
  cases is
  constructor
  · exact first.read
  · rw [← above]
    exact fields_congr fun e mem => value_unchanged fun x hx => kept x (mem_placesUnder mem hx)
  · exact ready.distinct.tail
  · exact fun e he => ready.nested e (List.mem_cons_of_mem _ he)
  · intro x hx
    rw [placesUnder_unchanged kept] at hx
    exact ready.rest_inside hx
  · intro e he
    rw [ready.written_eq first he]
    exact ready.once e (List.mem_cons_of_mem _ he)
  · intro e he x hx mem
    have same := ready.written_eq first he
    rw [same] at hx
    rcases first.mem_others same mem with mem | mem
    · exact ready.alone e (List.mem_cons_of_mem _ he) x hx mem
    · exact ready.apart e (List.mem_cons_of_mem _ he) x hx (ready.slot_inside mem)
  · intro e he x hx
    rw [ready.written_eq first he] at hx
    exact ready.apart e (List.mem_cons_of_mem _ he) x hx

/-- What has an entry still has it when the others have been merged. -/
theorem Ready.holds_first (ready : Ready m depth target given ((k, slot) :: rest) t ((k, v) :: s))
    (first : Merged m m₁ depth target [(k, slot)] t₁) (others : Merged m₁ m' depth target rest t') :
    Holds (m'.Has depth) (m'.entries target) (k, slot) := by
  have step := ready.step first
  have distinct {e : Name × Slot} (he : e ∈ rest) : (k == e.1) = false :=
    ready.distinct.head (List.mem_map_of_mem he)
  have there := others.others k fun e he => by rw [BEq.comm, distinct he]
  have holds := first.holds (k, slot) (List.mem_singleton_self _)
  unfold Holds
  rw [there]
  refine holds.imp fun p q found is has => ?_
  subst is
  have given_same : m₁.places depth q = m.places depth q :=
    (unchanged fun x hx => ready.given_kept first (ready.slot_inside hx)).2
  refine has.unchanged (fun x hx => others.same x fun e he mem => ?_)
    fun x hx => others.same x fun e he mem => ?_
  · have beside : ((m₁.entries target).others e.1).get? k = some (.object p) := by
      rw [Assoc.get?_others _ (distinct he), found]
    exact step.alone e he x mem (mem_placesUnder_of_get? beside hx)
  · rw [given_same] at hx
    exact step.apart e he x mem (ready.slot_inside hx)

theorem Ready.cons (ready : Ready m depth target given ((k, slot) :: rest) t ((k, v) :: s))
    (first : Merged m m₁ depth target [(k, slot)] t₁) (others : Merged m₁ m' depth target rest t') :
    Merged m m' depth target ((k, slot) :: rest) t' where
  read := others.read
  places := by
    have kept : placesUnder (m₁.places depth) rest = placesUnder (m.places depth) rest :=
      placesUnder_unchanged fun x hx => ready.given_kept first (ready.rest_inside hx)
    have le := first.places
    rw [placesUnder_cons, placesUnder, List.map_nil, List.sum_nil, add_zero] at le
    rw [placesUnder_cons, ← add_assoc, ← kept]
    exact others.places.trans (add_le_add_left le _)
  same x hx := by
    obtain ⟨here, below⟩ := List.forall_mem_cons.1 hx
    rw [others.same x fun e he => ?_, first.same x (List.forall_mem_singleton.2 here)]
    rw [ready.written_eq first he]
    exact below e he
  others j hj := by
    obtain ⟨here, below⟩ := List.forall_mem_cons.1 hj
    rw [others.others j below, first.others j (List.forall_mem_singleton.2 here)]
  holds := List.forall_mem_cons.2 ⟨ready.holds_first first others, others.holds⟩

end Step

/-! ## All entries -/

section Loop

variable {done : Assoc Name Slot} {given : Multiset Nat}

theorem mergeEntries_zero (here : m[source]? = some table) :
    mergeEntries mergeObjects target source table.length 0 m = (.ok (), m) := by
  rw [mergeEntries, entries_eq here, if_pos rfl]

/-- The next entry of the source is merged, and then the others. -/
theorem mergeEntries_succ (here : m[source]? = some (done ++ (k, slot) :: rest))
    (ran : mergeEntry mergeObjects target k slot m = (.ok (), m₁)) :
    mergeEntries mergeObjects target source (done ++ (k, slot) :: rest).length (rest.length + 1) m =
      mergeEntries mergeObjects target source (done ++ (k, slot) :: rest).length
        rest.length m₁ := by
  have next : (done ++ (k, slot) :: rest)[(done ++ (k, slot) :: rest).length - (rest.length + 1)]? =
      some (k, slot) := by simp
  rw [mergeEntries, entries_eq here, if_pos rfl, next]
  simp only [ran]

/-- Where a merge stands, it goes on to its end. -/
theorem Merges.mergeEntries (merges : Merges depth mergeObjects) (done : Assoc Name Slot)
    (here : m[source]? = some (done ++ rest)) (isGiven : source ∈ given)
    (ready : Ready m depth target given rest t s) :
    ∃ m', Memory.mergeEntries mergeObjects target source (done ++ rest).length rest.length m =
        (.ok (), m') ∧ Merged m m' depth target rest (Settings.merge t s) := by
  induction rest generalizing m done t s with
  | nil =>
    cases ready.above
    refine ⟨m, mergeEntries_zero here, ?_, Multiset.le_add_right _ _, fun _ _ => rfl,
      fun _ _ => rfl, by simp⟩
    rw [Settings.merge]
    exact ready.below
  | cons e rest ih =>
    obtain ⟨k, slot⟩ := e
    obtain ⟨v, s, value, -, rfl⟩ := fields_cons_eq_some ready.above
    obtain ⟨m₁, ran, first⟩ := merges.mergeEntry ready value
    have there : m₁[source]? = some (done ++ [(k, slot)] ++ rest) := by
      rw [ready.given_kept first isGiven, here]
      simp
    obtain ⟨m', ran', others⟩ := ih (done ++ [(k, slot)]) there (ready.step first)
    rw [Settings.merge]
    refine ⟨m', ?_, ready.cons first others⟩
    rw [List.append_assoc, List.singleton_append] at ran'
    exact (mergeEntries_succ here ran).trans ran'

end Loop

/-- Before any entry is merged, all of them are left. -/
theorem ready_of_read (below : m.read (depth + 1) target = some t)
    (here : m[source]? = some table) (above : fields (m.read depth) table = some s)
    (once : (m.places (depth + 1) target).Nodup)
    (apart : ∀ x ∈ m.places (depth + 1) target, x ∉ m.places (depth + 1) source)
    (nested : Value.IsNested (.object s)) :
    Ready m depth target (m.places (depth + 1) source) table t s where
  below := below
  above := above
  distinct := distinct_of_fields above nested
  nested _ mem := nested.of_mem mem
  inside x hx := by
    rw [places_succ here]
    exact Multiset.mem_cons_of_mem hx
  once _ _ := Multiset.nodup_of_le written_le_places once
  alone e _ x hx mem := by
    rw [places, placesUnder_eq _ e.1, ← Multiset.cons_add, Multiset.nodup_add] at once
    exact Multiset.disjoint_left.1 once.2.2 hx mem
  apart _ _ x hx := apart x (Multiset.mem_of_le written_le_places hx)

/-- Merging merges objects that are apart if as many calls are allowed as the objects are deep. -/
theorem merges_merge {calls : Nat} (deep : depth ≤ calls) : Merges depth (merge calls) := by
  intro m target source t s below above once apart nested
  induction calls generalizing depth m target source t s with
  | zero =>
    obtain rfl : depth = 0 := Nat.le_zero.1 deep
    cases below
  | succ calls ih =>
    cases depth with
    | zero => cases below
    | succ depth =>
      obtain ⟨table, here, reads⟩ := read_succ_eq_some above
      have inner : Merges depth (merge calls) := fun _ _ _ _ _ below above once apart nested =>
        ih (Nat.le_of_succ_le_succ deep) below above once apart nested
      have ready := ready_of_read below here reads once apart nested
      have isGiven : source ∈ m.places (depth + 1) source := by
        rw [places]
        exact Multiset.mem_cons_self ..
      obtain ⟨m', ran, merged⟩ := inner.mergeEntries [] here isGiven ready
      have same (x : Nat) (hx : x ∉ m.places (depth + 1) target) : m'[x]? = m[x]? :=
        merged.same x fun _ _ mem => hx (Multiset.mem_of_le written_le_places mem)
      refine ⟨m', ?_, merged.read, merged.places.trans ?_, same, ?_⟩
      · rw [merge, entries_eq here]
        exact ran
      · rw [places_succ here]
        exact add_le_add_right (Multiset.le_cons_self _ _) _
      · rw [Has, entries_unchanged (same source fun mem => apart source mem isGiven),
          entries_eq here]
        exact merged.holds

/-- After a merge the source is as it was, and merging it once more changes nothing. -/
theorem merge_again {calls : Nat} (deep : depth ≤ calls) (below : m.read depth target = some t)
    (above : m.read depth source = some s) (once : (m.places depth target).Nodup)
    (apart : ∀ x ∈ m.places depth target, x ∉ m.places depth source)
    (nested : Value.IsNested (.object s)) (ran : merge calls target source m = (.ok (), m')) :
    m'.read depth source = some s ∧
      ∀ calls', (merge calls' target source m').1 ≠ .error .tooDeep →
        merge calls' target source m' = (.ok (), m') := by
  obtain ⟨m'', ran', -, -, same, has⟩ := merges_merge deep below above once apart nested
  obtain rfl : m' = m'' := by
    rw [ran] at ran'
    exact (Prod.mk.inj ran').2
  constructor
  · rw [(unchanged fun x hx => same x fun mem => apart x mem hx).1, above]
  · intro calls' reached
    rw [← merge_of_le (Nat.le_max_left calls' depth) reached]
    exact merge_of_has has (Nat.le_max_right ..)

end RecordSeal.Memory
