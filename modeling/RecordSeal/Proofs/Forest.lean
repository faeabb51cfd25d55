import Mathlib.Data.List.Infix
import RecordSeal.Classification
import RecordSeal.Proofs.Table

set_option autoImplicit false

/-! # Forests that grow

Types are added and marked, but never changed otherwise. A type that inherits its markers sees those
of its nearest marked ancestor, and marking a type starts from the markers that it has or inherits.
So whatever is done to a forest, no type is ever less exempt or less signed only than before
(`Forest.Grows`). -/

namespace RecordSeal

/-! ## Markers -/

namespace Markers

/-- Whether the second markers exempt and leave in plain whatever the first ones do. -/
structure Within (m n : Markers) : Prop where
  doNotTouch : m.doNotTouch = true → n.doNotTouch = true
  doNotEncrypt : m.doNotEncrypt = true → n.doNotEncrypt = true

theorem Within.refl (m : Markers) : m.Within m := ⟨id, id⟩

theorem Within.trans {m n k : Markers} (h : m.Within n) (h' : n.Within k) : m.Within k :=
  ⟨fun touch => h'.doNotTouch (h.doNotTouch touch),
    fun plain => h'.doNotEncrypt (h.doNotEncrypt plain)⟩

theorem within_add {m n : Markers} {marker : Marker} (h : m.add marker = .ok n) : m.Within n := by
  cases marker with
  | tableOverride table =>
    rw [add] at h
    split at h
    · cases h
      exact ⟨id, id⟩
    · cases h
  | _ =>
    cases h
    exact ⟨fun touch => by simp [touch], fun plain => by simp [plain]⟩

theorem join_within (m : Markers) : (m.join {}).Within m :=
  ⟨fun touch => by simpa [join] using touch, fun plain => by simpa [join] using plain⟩

end Markers

/-! ## Types and their places -/

/-- Whether a field has no alias unless it is written under a name of its own. -/
def Field.IsDeclared (f : Field) : Prop := f.writeName = none → f.aliasName = none

namespace Forest

/-- Whether lineages lead through the forest from each type to a root, and fields come from
declarations. The root of the plain types has no markers. -/
structure WellBuilt (f : Forest) : Prop where
  inside : ∀ id, ∀ a ∈ (f.typeAt id).lineage, a.index < f.types.length
  lineage : ∀ id a rest, a :: rest <:+ (f.typeAt id).lineage → (f.typeAt a).lineage = a :: rest
  plain : (f.typeAt plainRoot).markers = none
  declared : ∀ id, ∀ e ∈ (f.typeAt id).fields, e.2.IsDeclared

/-- A forest with everything that another one has, types being at least as exempt and as signed
only as before. -/
structure Grows (f f' : Forest) : Prop where
  built : f'.WellBuilt
  markers : ∀ id, (f.markersOf id).Within (f'.markersOf id)
  kept : ∀ id : ModelId, id.index < f.types.length →
    (f'.typeAt id).kind = (f.typeAt id).kind ∧ (f'.typeAt id).fields = (f.typeAt id).fields
  length : f.types.length ≤ f'.types.length

variable {f f' f'' : Forest}

theorem Grows.refl (built : f.WellBuilt) : f.Grows f :=
  ⟨built, fun _ => .refl _, fun _ _ => ⟨rfl, rfl⟩, Nat.le_refl _⟩

theorem Grows.trans (h : f.Grows f') (h' : f'.Grows f'') : f.Grows f'' := by
  refine ⟨h'.built, fun id => (h.markers id).trans (h'.markers id), ?_,
    Nat.le_trans h.length h'.length⟩
  intro id inside
  obtain ⟨kind, fields⟩ := h.kept id inside
  obtain ⟨kind', fields'⟩ := h'.kept id (Nat.lt_of_lt_of_le inside h.length)
  exact ⟨kind'.trans kind, fields'.trans fields⟩

theorem typeAt_of_le {id : ModelId} (h : f.types.length ≤ id.index) : f.typeAt id = plainType := by
  rw [typeAt, List.getD_eq_getElem?_getD, List.getElem?_eq_none h]
  rfl

theorem typeAt_mem (f : Forest) (id : ModelId) : f.typeAt id ∈ plainType :: f.types := by
  rw [typeAt, List.getD_eq_getElem?_getD]
  cases found : f.types[id.index]? with
  | none => exact List.mem_cons_self ..
  | some t => exact List.mem_cons_of_mem _ (List.mem_of_getElem? found)

/-- Where lineages pass through a type they go on as its own does. -/
theorem exists_lineage_eq (built : f.WellBuilt) {a id : ModelId}
    (h : id ∈ (f.typeAt a).lineage) : ∃ rest, (f.typeAt id).lineage = id :: rest := by
  obtain ⟨before, rest, split⟩ := List.append_of_mem h
  exact ⟨rest, built.lineage a id rest ⟨before, split.symm⟩⟩

theorem declared_serviceType (place : Nat) (name : String) (fields : List (String × FieldType)) :
    ∀ e ∈ (serviceType place name fields).fields, e.2.IsDeclared := by
  intro e he
  obtain ⟨-, -, rfl⟩ := List.mem_map.1 he
  exact fun _ => rfl

theorem wellBuilt_roots : roots.WellBuilt := by
  have all {P : ModelType → Prop} (h : ∀ t ∈ plainType :: roots.types, P t) (id : ModelId) :
      P (roots.typeAt id) := h _ (typeAt_mem roots id)
  constructor
  · exact all (P := fun t => ∀ a ∈ t.lineage, a.index < 6) (by decide)
  · have walks : ∀ t ∈ plainType :: roots.types, ∀ l ∈ t.lineage.tails, ∀ a ∈ l.head?,
        (roots.typeAt a).lineage = l := by decide
    intro id a rest h
    exact walks _ (typeAt_mem roots id) _ ((List.mem_tails _ _).2 h) a rfl
  · rfl
  · refine all (P := fun t => ∀ e ∈ t.fields, e.2.IsDeclared) ?_
    simp only [roots, List.forall_mem_cons]
    refine ⟨?_, ?_, ?_, ?_, ?_, ?_, ?_, by simp⟩
    iterate 4 (simp [plainType, documentType, sealedType])
    all_goals exact declared_serviceType _ _ _

/-! ## Markers that types inherit -/

theorem markers_roots (id : ModelId) : (roots.typeAt id).markers = none := by
  have all : ∀ t ∈ plainType :: roots.types, t.markers = none := by
    simp [roots, plainType, documentType, sealedType, serviceType]
  exact all _ (typeAt_mem roots id)

theorem findSome?_congr {α β : Type} {l : List α} {f g : α → Option β} (h : ∀ a ∈ l, f a = g a) :
    l.findSome? f = l.findSome? g := by
  induction l with
  | nil => rfl
  | cons a l ih =>
    obtain ⟨first, others⟩ := List.forall_mem_cons.1 h
    rw [List.findSome?_cons, List.findSome?_cons, first, ih others]

/-- Markers are looked up along the lineage only. -/
theorem markersOf_congr {id : ModelId} (lineage : (f'.typeAt id).lineage = (f.typeAt id).lineage)
    (own : ∀ a ∈ (f.typeAt id).lineage, (f'.typeAt a).markers = (f.typeAt a).markers) :
    f'.markersOf id = f.markersOf id := by
  rw [markersOf, markersOf, nearest, nearest, lineage, findSome?_congr own]

/-! ## Marking -/

theorem typeAt_update_markers (f : Forest) (id : ModelId) (markers : Option Markers) (a : ModelId) :
    (f.update id ({ · with markers := markers })).typeAt a =
      if id = a ∧ a.index < f.types.length then { f.typeAt a with markers := markers }
      else f.typeAt a := by
  have place : id = a ↔ id.index = a.index := by
    cases id
    cases a
    simp
  simp only [typeAt, update, List.getD_eq_getElem?_getD, List.getElem?_modify, place]
  by_cases same : id.index = a.index
  · by_cases inside : a.index < f.types.length
    · simp [same, inside]
    · simp [same, inside]
  · simp [same]

/-- The nearest markers along a lineage are related to those that are nearest later, if every type
keeps its own or is given some to which what it had or inherited is related. -/
theorem rel_findSome? {R : Markers → Markers → Prop} (refl : ∀ m, R m m) {lineage : List ModelId}
    {own own' : ModelId → Option Markers}
    (changed : ∀ a rest, a :: rest <:+ lineage → own' a = own a ∨
      ∃ markers, own' a = some markers ∧ R (((a :: rest).findSome? own).getD {}) markers) :
    R ((lineage.findSome? own).getD {}) ((lineage.findSome? own').getD {}) := by
  induction lineage with
  | nil => exact refl _
  | cons a rest ih =>
    rcases changed a rest List.suffix_rfl with same | ⟨markers, new, more⟩
    · rw [List.findSome?_cons, List.findSome?_cons, same]
      cases own a with
      | some markers => exact refl _
      | none => exact ih fun b rest' suffix => changed b rest' (suffix.trans (List.suffix_cons ..))
    · rw [List.findSome?_cons (f := own'), new]
      exact more

theorem mark_eq_ok {id : ModelId} {marker : Marker} (h : f.mark id marker = .ok f') :
    ∃ markers, (f.markersOf id).add marker = .ok markers ∧ id ≠ plainRoot ∧
      f' = f.update id ({ · with markers := some markers }) := by
  rw [mark] at h
  cases added : (f.markersOf id).add marker with
  | error why =>
    rw [added] at h
    cases h
  | ok markers =>
    rw [added] at h
    simp only [bind, Except.bind] at h
    split at h
    · cases h
    · next other =>
      cases h
      exact ⟨markers, rfl, other, rfl⟩

section Mark

variable {id : ModelId} {marker : Marker} (h : f.mark id marker = .ok f')

include h

theorem length_mark : f'.types.length = f.types.length := by
  obtain ⟨markers, -, -, rfl⟩ := mark_eq_ok h
  simp [update]

theorem typeAt_mark (a : ModelId) :
    (∃ markers, f'.typeAt a = { f.typeAt a with markers }) ∧
      (a ≠ id → f'.typeAt a = f.typeAt a) := by
  obtain ⟨markers, -, -, rfl⟩ := mark_eq_ok h
  rw [typeAt_update_markers]
  refine ⟨?_, fun apart => if_neg fun same => apart same.1.symm⟩
  split <;> exact ⟨_, rfl⟩

theorem lineage_mark (a : ModelId) : (f'.typeAt a).lineage = (f.typeAt a).lineage := by
  obtain ⟨⟨markers, same⟩, -⟩ := typeAt_mark h a
  rw [same]

/-- What a type has after it was marked is what it had or inherited with one marker more. -/
theorem markersOf_mark_self (built : f.WellBuilt) (inside : id.index < f.types.length) {a : ModelId}
    (below : id ∈ (f.typeAt a).lineage) : (f.markersOf id).add marker = .ok (f'.markersOf id) := by
  obtain ⟨rest, own⟩ := exists_lineage_eq built below
  have lineage := (lineage_mark h id).trans own
  obtain ⟨markers, added, -, rfl⟩ := mark_eq_ok h
  have marked : ((f.update id ({ · with markers := some markers })).typeAt id).markers =
      some markers := by
    rw [typeAt_update_markers, if_pos ⟨rfl, inside⟩]
  rw [added, markersOf, nearest, lineage, List.findSome?_cons, marked]
  rfl

end Mark

/-- What holds between the markers that a type has or inherits and the same with one more, holds
between the markers of every type before and after the type was marked. -/
theorem rel_markersOf_mark {R : Markers → Markers → Prop} (refl : ∀ m, R m m)
    (added : ∀ {m n : Markers} {marker : Marker}, m.add marker = .ok n → R m n)
    (built : f.WellBuilt) {id : ModelId} {marker : Marker} (h : f.mark id marker = .ok f')
    (a : ModelId) : R (f.markersOf a) (f'.markersOf a) := by
  rw [markersOf, markersOf, nearest, nearest, lineage_mark h]
  obtain ⟨markers, more, -, rfl⟩ := mark_eq_ok h
  refine rel_findSome? refl ?_
  intro b rest suffix
  rw [typeAt_update_markers]
  split
  · next same =>
    obtain ⟨rfl, -⟩ := same
    -- What the marker was added to is what the type had or inherited.
    have own : f.markersOf id =
        (((id :: rest).findSome? fun b => (f.typeAt b).markers).getD {}) := by
      rw [markersOf, nearest, built.lineage a id rest suffix]
    exact .inr ⟨markers, rfl, own ▸ added more⟩
  · exact .inl rfl

/-- Marking a type makes no type less exempt or less signed only. -/
theorem grows_of_mark (built : f.WellBuilt) {id : ModelId} {marker : Marker}
    (h : f.mark id marker = .ok f') : f.Grows f' := by
  obtain ⟨-, -, other, -⟩ := mark_eq_ok h
  have lineage := lineage_mark h
  have kept (a : ModelId) :
      (f'.typeAt a).kind = (f.typeAt a).kind ∧ (f'.typeAt a).fields = (f.typeAt a).fields := by
    obtain ⟨⟨markers, same⟩, -⟩ := typeAt_mark h a
    rw [same]
    exact ⟨rfl, rfl⟩
  refine ⟨⟨?_, ?_, ?_, ?_⟩, rel_markersOf_mark Markers.Within.refl Markers.within_add built h,
    fun a _ => kept a, by rw [length_mark h]⟩
  · intro a b hb
    rw [length_mark h]
    rw [lineage] at hb
    exact built.inside a b hb
  · intro a b rest suffix
    rw [lineage] at suffix ⊢
    exact built.lineage a b rest suffix
  · rw [(typeAt_mark h plainRoot).2 other.symm]
    exact built.plain
  · intro a e he
    rw [(kept a).2] at he
    exact built.declared a e he

/-! ## Adding types -/

theorem typeAt_append (f : Forest) (t : ModelType) (a : ModelId) :
    (Forest.mk (f.types ++ [t])).typeAt a =
      if a.index = f.types.length then t else f.typeAt a := by
  simp only [typeAt, List.getD_eq_getElem?_getD]
  by_cases new : a.index = f.types.length
  · simp [new]
  · rw [if_neg new]
    rcases Nat.lt_or_gt_of_ne new with inside | outside
    · rw [List.getElem?_append_left inside]
    · rw [List.getElem?_eq_none (by simp; omega), List.getElem?_eq_none (by omega)]

section AddType

variable {base id : ModelId} {name module : String} {table : Option Value}
  {fields : Assoc String Field}

/-- A place shows the new type, below its base, or what it showed before. -/
theorem typeAt_addType (h : f.addType base name module table fields = (id, f')) (a : ModelId) :
    f'.typeAt a =
      if a.index = f.types.length then
        { name, module, kind := (f.typeAt base).kind
          lineage := ⟨f.types.length⟩ :: (f.typeAt base).lineage
          fields := (f.typeAt base).fields.insertAll fields, table }
      else f.typeAt a := by
  rw [addType] at h
  cases h
  exact typeAt_append f _ a

theorem length_addType (h : f.addType base name module table fields = (id, f')) :
    f'.types.length = f.types.length + 1 := by
  rw [addType] at h
  cases h
  exact List.length_append

theorem wellBuilt_addType (built : f.WellBuilt) (declared : ∀ e ∈ fields, e.2.IsDeclared)
    (h : f.addType base name module table fields = (id, f')) : f'.WellBuilt := by
  have types := typeAt_addType h
  have old {a : ModelId} (inside : a.index < f.types.length) :=
    (types a).trans (if_neg (Nat.ne_of_lt inside))
  refine ⟨?_, ?_, ?_, ?_⟩
  · intro a b hb
    rw [length_addType h]
    rw [types] at hb
    split at hb
    · rcases List.mem_cons.1 hb with rfl | hb
      · exact Nat.lt_succ_self _
      · exact Nat.lt_succ_of_lt (built.inside base b hb)
    · exact Nat.lt_succ_of_lt (built.inside a b hb)
  · intro a b rest suffix
    rw [types a] at suffix
    split at suffix
    · rcases List.suffix_cons_iff.1 suffix with whole | suffix
      · obtain ⟨rfl, rfl⟩ := List.cons.inj whole
        rw [types, if_pos rfl]
      · rw [old (built.inside base b (suffix.subset (List.mem_cons_self ..)))]
        exact built.lineage base b rest suffix
    · rw [old (built.inside a b (suffix.subset (List.mem_cons_self ..)))]
      exact built.lineage a b rest suffix
  · -- A place that shows no type shows the root of the plain types, so that one is inside.
    have nonempty : plainRoot.index < f.types.length := by
      have outside : f.typeAt ⟨f.types.length⟩ = plainType := typeAt_of_le (Nat.le_refl _)
      refine built.inside ⟨f.types.length⟩ plainRoot ?_
      rw [outside]
      exact List.mem_cons_self ..
    rw [old nonempty]
    exact built.plain
  · intro a
    rw [types]
    split
    · exact Assoc.forall_insertAll (built.declared base) declared
    · exact built.declared a

/-- A new type below another one leaves all types as they are. -/
theorem grows_of_addType (built : f.WellBuilt) (declared : ∀ e ∈ fields, e.2.IsDeclared)
    (h : f.addType base name module table fields = (id, f')) : f.Grows f' := by
  have types := typeAt_addType h
  have old {a : ModelId} (inside : a.index < f.types.length) :=
    (types a).trans (if_neg (Nat.ne_of_lt inside))
  refine ⟨wellBuilt_addType built declared h, ?_, ?_, ?_⟩
  · intro a
    by_cases new : a.index = f.types.length
    · -- Before it was added, the place of the type showed the root of the plain types.
      have outside : f.typeAt a = plainType := typeAt_of_le (Nat.le_of_eq new.symm)
      have none : f.markersOf a = {} := by
        rw [markersOf, nearest, outside]
        simp [plainType, built.plain]
      rw [none]
      exact ⟨by simp, by simp⟩
    · have same : f'.markersOf a = f.markersOf a := by
        refine markersOf_congr (by rw [types a, if_neg new]) ?_
        intro b hb
        rw [old (built.inside a b hb)]
      exact same ▸ .refl _
  · intro a inside
    rw [old inside]
    exact ⟨rfl, rfl⟩
  · rw [length_addType h]
    exact Nat.le_succ _

end AddType

end Forest

end RecordSeal
