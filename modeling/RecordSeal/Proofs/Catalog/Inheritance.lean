import RecordSeal.Proofs.Catalog.Coherence

set_option autoImplicit false

/-! # Markers that types inherit

A type without markers of its own has those of its nearest marked ancestor, and marking it starts
from a copy of what it has or inherits. Marking a type therefore says nothing of the types that do
not descend from it, nor of those that have markers of their own, and takes no marker away
(`Forest.Marks`). If every type is marked before there are types below it, copies and inheritance
come to the same: a type has exactly the markers that were placed along its lineage
(`Forest.Collected`). -/

namespace RecordSeal

/-! ## Markers -/

namespace Marker

/-- The table that an override names. Other markers are none. -/
def override? : Marker → Option Value
  | tableOverride table => some table
  | _ => none

/-- Whether a marker is taken: an override must name a table. -/
def isTaken : Marker → Bool
  | tableOverride table => table.isGiven
  | _ => true

end Marker

namespace Markers

variable {m n k : Markers} {marker : Marker}

/-- Whether a marker is among those of a type. -/
def Has (m : Markers) : Marker → Prop
  | .doNotTouch => m.doNotTouch = true
  | .doNotEncrypt => m.doNotEncrypt = true
  | .handleUnknown => m.handleUnknown = true
  | .tableOverride table => m.tableOverride = some table

/-- Whether the second markers are the first ones with more, the override possibly naming another
table. -/
structure Kept (m n : Markers) : Prop where
  flags : ∀ flag : Marker, flag.override? = none → m.Has flag → n.Has flag
  override : m.tableOverride.isSome = true → n.tableOverride.isSome = true

theorem Kept.refl (m : Markers) : m.Kept m := ⟨fun _ _ has => has, id⟩

theorem Kept.trans (h : m.Kept n) (h' : n.Kept k) : m.Kept k :=
  ⟨fun flag plain has => h'.flags flag plain (h.flags flag plain has),
    fun some => h'.override (h.override some)⟩

theorem not_has_empty {flag : Marker} (plain : flag.override? = none) :
    ¬ ({} : Markers).Has flag := by
  cases flag <;> simp_all [Has, Marker.override?]

theorem add_cases (m : Markers) (marker : Marker) :
    (marker.isTaken = true ∧ ∃ n, m.add marker = .ok n) ∨
      (marker.isTaken = false ∧ ∃ why, m.add marker = .error why) := by
  cases marker with
  | tableOverride table =>
    rw [Marker.isTaken, add]
    cases table.isGiven with
    | true => exact .inl ⟨rfl, _, rfl⟩
    | false => exact .inr ⟨rfl, _, rfl⟩
  | _ => exact .inl ⟨rfl, _, rfl⟩

section

variable (h : m.add marker = .ok n)

include h

theorem has_add {flag : Marker} (plain : flag.override? = none) :
    n.Has flag ↔ flag = marker ∨ m.Has flag := by
  cases marker with
  | tableOverride table =>
    rw [add] at h
    split at h
    · cases h
      cases flag <;> simp_all [Has, Marker.override?]
    · cases h
  | _ =>
    cases h
    cases flag <;> simp_all [Has, Marker.override?]

theorem tableOverride_add : n.tableOverride = marker.override?.or m.tableOverride := by
  cases marker with
  | tableOverride table =>
    rw [add] at h
    split at h
    · cases h
      rfl
    · cases h
  | _ =>
    cases h
    rfl

theorem kept_add : m.Kept n := by
  refine ⟨fun flag plain has => (has_add h plain).2 (.inr has), fun some => ?_⟩
  rw [tableOverride_add h]
  cases marker.override? with
  | none => exact some
  | some table => rfl

end

end Markers

/-! ## Marking -/

namespace Forest

variable {f f' f'' : Forest} {id : ModelId} {marker : Marker}

/-- Whether every type stands at the head of its lineage. -/
def Headed (f : Forest) : Prop :=
  ∀ id : ModelId, id.index < f.types.length → id ∈ (f.typeAt id).lineage

/-- Whether there are no types below a type. -/
def IsLeaf (f : Forest) (id : ModelId) : Prop := ∀ a, id ∈ (f.typeAt a).lineage → a = id

/-- What changes by placing markers on one type. -/
structure Marks (f f' : Forest) (id : ModelId) : Prop where
  length : f'.types.length = f.types.length
  lineage : ∀ a, (f'.typeAt a).lineage = (f.typeAt a).lineage
  own : ∀ a, a ≠ id → (f'.typeAt a).markers = (f.typeAt a).markers
  kept : ∀ a, (f.markersOf a).Kept (f'.markersOf a)

namespace Marks

theorem refl (f : Forest) (id : ModelId) : f.Marks f id :=
  ⟨rfl, fun _ => rfl, fun _ _ => rfl, fun _ => .refl _⟩

theorem trans (h : f.Marks f' id) (h' : f'.Marks f'' id) : f.Marks f'' id :=
  ⟨h'.length.trans h.length, fun a => (h'.lineage a).trans (h.lineage a),
    fun a apart => (h'.own a apart).trans (h.own a apart),
    fun a => (h.kept a).trans (h'.kept a)⟩

theorem of_mark (built : f.WellBuilt) (h : f.mark id marker = .ok f') : f.Marks f' id := by
  refine ⟨length_mark h, lineage_mark h, ?_,
    rel_markersOf_mark Markers.Kept.refl Markers.kept_add built h⟩
  intro a apart
  rw [(typeAt_mark h a).2 apart]

theorem outside (h : f.Marks f' id) {a : ModelId} (apart : id ∉ (f.typeAt a).lineage) :
    f'.markersOf a = f.markersOf a := by
  refine markersOf_congr (h.lineage a) ?_
  intro b hb
  refine h.own b ?_
  rintro rfl
  exact apart hb

theorem ofOwn (h : f.Marks f' id) (built : f.WellBuilt) (headed : f.Headed) {a : ModelId}
    (apart : a ≠ id) (own : (f.typeAt a).markers.isSome = true) :
    f'.markersOf a = f.markersOf a := by
  have inside : a.index < f.types.length := by
    by_contra outside
    rw [typeAt_of_le (Nat.le_of_not_lt outside)] at own
    cases own
  obtain ⟨rest, lineage⟩ := exists_lineage_eq built (headed a inside)
  obtain ⟨markers, own⟩ := Option.isSome_iff_exists.1 own
  rw [markersOf, markersOf, nearest, nearest, h.lineage, lineage, List.findSome?_cons,
    List.findSome?_cons, h.own a apart, own]

end Marks

/-! ## What was placed -/

variable {placed : List (ModelId × Marker)}

/-- The table of the override that was last placed on a type. -/
def lastOverride (placed : List (ModelId × Marker)) (id : ModelId) : Option Value :=
  placed.reverse.findSome? fun e => if e.1 = id then e.2.override? else none

theorem lastOverride_append (placed : List (ModelId × Marker)) (id : ModelId) (marker : Marker)
    (a : ModelId) :
    lastOverride (placed ++ [(id, marker)]) a =
      if id = a then marker.override?.or (lastOverride placed a) else lastOverride placed a := by
  rw [lastOverride, List.reverse_append, List.reverse_singleton, List.singleton_append,
    List.findSome?_cons, lastOverride]
  by_cases same : id = a
  · rw [if_pos same, if_pos same]
    cases marker.override? <;> rfl
  · rw [if_neg same, if_neg same]

theorem lastOverride_eq_none (h : ∀ e ∈ placed, e.1 ≠ id) : lastOverride placed id = none := by
  rw [lastOverride, List.findSome?_eq_none_iff]
  intro e he
  exact if_neg (h e (List.mem_reverse.1 he))

/-- Whether the markers of a type are those that were placed on it and on the types above it, the
override being the last one of the nearest type on which one was placed. -/
structure Collected (f : Forest) (placed : List (ModelId × Marker)) (id : ModelId) : Prop where
  flags : ∀ flag : Marker, flag.override? = none →
    ((f.markersOf id).Has flag ↔ ∃ a ∈ (f.typeAt id).lineage, (a, flag) ∈ placed)
  override : (f.markersOf id).tableOverride = (f.typeAt id).lineage.findSome? (lastOverride placed)

/-- Whether all types have the markers that were placed along their lineages. -/
structure Traced (f : Forest) (placed : List (ModelId × Marker)) : Prop where
  built : f.WellBuilt
  inside : ∀ e ∈ placed, e.1.index < f.types.length
  collected : ∀ id, f.Collected placed id

theorem traced_roots : roots.Traced [] := by
  have empty (id : ModelId) : roots.markersOf id = {} := by
    have none : roots.nearest (·.markers) id = none :=
      List.findSome?_eq_none_iff.2 fun a _ => markers_roots a
    rw [markersOf, none]
    rfl
  refine ⟨wellBuilt_roots, by simp, fun id => ⟨fun flag plain => ?_, ?_⟩⟩
  · rw [empty]
    simpa using Markers.not_has_empty plain
  · rw [empty]
    exact (List.findSome?_eq_none_iff.2 fun _ _ => rfl).symm

theorem Collected.mark (h : f.Collected placed id) (built : f.WellBuilt)
    (marked : f.mark id marker = .ok f') (inside : id.index < f.types.length)
    (own : id ∈ (f.typeAt id).lineage) : f'.Collected (placed ++ [(id, marker)]) id := by
  have added := markersOf_mark_self marked built inside own
  constructor
  · intro flag plain
    rw [Markers.has_add added plain, h.flags flag plain, lineage_mark marked]
    simp only [List.mem_append, List.mem_singleton, Prod.mk.injEq]
    constructor
    · rintro (rfl | ⟨b, hb, old⟩)
      · exact ⟨id, own, .inr ⟨rfl, rfl⟩⟩
      · exact ⟨b, hb, .inl old⟩
    · rintro ⟨b, hb, old | ⟨-, rfl⟩⟩
      · exact .inr ⟨b, hb, old⟩
      · exact .inl rfl
  · obtain ⟨rest, lineage⟩ := exists_lineage_eq built own
    rw [Markers.tableOverride_add added, h.override, lineage_mark marked, lineage]
    -- What was placed last on the type itself comes before all that its ancestors have.
    cases new : marker.override? with
    | none =>
      refine findSome?_congr fun b _ => ?_
      rw [lastOverride_append, new]
      split <;> rfl
    | some table =>
      have last : lastOverride (placed ++ [(id, marker)]) id = some table := by
        rw [lastOverride_append, if_pos rfl, new]
        rfl
      rw [Option.some_or, List.findSome?_cons, last]

/-- A marker that is placed on a type is collected there and below, and nowhere else. -/
theorem Collected.mark_of_apart {a : ModelId} (h : f.Collected placed a) (marks : f.Marks f' id)
    (marker : Marker) (apart : id ∉ (f.typeAt a).lineage) :
    f'.Collected (placed ++ [(id, marker)]) a := by
  constructor
  · intro flag plain
    rw [marks.outside apart, h.flags flag plain, marks.lineage]
    simp only [List.mem_append, List.mem_singleton, Prod.mk.injEq]
    constructor
    · rintro ⟨b, hb, old⟩
      exact ⟨b, hb, .inl old⟩
    · rintro ⟨b, hb, old | ⟨rfl, -⟩⟩
      · exact ⟨b, hb, old⟩
      · exact absurd hb apart
  · rw [marks.outside apart, h.override, marks.lineage]
    refine findSome?_congr fun b hb => ?_
    rw [lastOverride_append, if_neg]
    rintro rfl
    exact apart hb

/-- So if there are no types below, all have what was placed along their lineages. -/
theorem Traced.mark (h : f.Traced placed) (marked : f.mark id marker = .ok f')
    (inside : id.index < f.types.length) (leaf : f.IsLeaf id) :
    f'.Traced (placed ++ [(id, marker)]) := by
  have marks := Marks.of_mark h.built marked
  refine ⟨(grows_of_mark h.built marked).built, ?_, fun a => ?_⟩
  · intro e he
    rw [marks.length]
    rcases List.mem_append.1 he with old | new
    · exact h.inside e old
    · obtain rfl := List.mem_singleton.1 new
      exact inside
  · by_cases below : id ∈ (f.typeAt a).lineage
    · obtain rfl := leaf a below
      exact (h.collected a).mark h.built marked inside below
    · exact (h.collected a).mark_of_apart marks marker below

section AddType

variable {base : ModelId} {name module : String} {table : Option Value}
  {fields : Assoc String Field} (added : f.addType base name module table fields = (id, f'))

include added

theorem lineage_addType (a : ModelId) :
    (f'.typeAt a).lineage =
      if a.index = f.types.length then ⟨f.types.length⟩ :: (f.typeAt base).lineage
      else (f.typeAt a).lineage := by
  rw [typeAt_addType added]
  split <;> rfl

/-- A new type inherits the markers of its base. All others have those that they had. -/
theorem markersOf_addType (built : f.WellBuilt) (a : ModelId) :
    f'.markersOf a = if a.index = f.types.length then f.markersOf base else f.markersOf a := by
  have old {b c : ModelId} (hb : b ∈ (f.typeAt c).lineage) :
      (f'.typeAt b).markers = (f.typeAt b).markers := by
    rw [typeAt_addType added, if_neg (Nat.ne_of_lt (built.inside c b hb))]
  by_cases new : a.index = f.types.length
  · have none : (f'.typeAt ⟨f.types.length⟩).markers = none := by
      rw [typeAt_addType added, if_pos rfl]
    rw [if_pos new, markersOf, markersOf, nearest, nearest, lineage_addType added, if_pos new,
      List.findSome?_cons, none]
    exact congrArg (Option.getD · _) (findSome?_congr fun b hb => old hb)
  · rw [if_neg new]
    exact markersOf_congr ((lineage_addType added a).trans (if_neg new)) fun b hb => old hb

theorem Headed.addType (h : f.Headed) : f'.Headed := by
  intro a inside
  rw [length_addType added] at inside
  rw [lineage_addType added]
  split
  · next new => exact List.mem_cons.2 (.inl (congrArg ModelId.mk new))
  · next old => exact h a (Nat.lt_of_le_of_ne (Nat.le_of_lt_succ inside) old)

theorem Traced.addType (h : f.Traced placed) (built : f'.WellBuilt) : f'.Traced placed := by
  have unplaced (e : ModelId × Marker) (he : e ∈ placed) : e.1 ≠ ⟨f.types.length⟩ := by
    intro new
    have inside := h.inside e he
    rw [new] at inside
    exact Nat.lt_irrefl _ inside
  refine ⟨built, ?_, fun a => ?_⟩
  · intro e he
    rw [length_addType added]
    exact Nat.lt_succ_of_lt (h.inside e he)
  · by_cases new : a.index = f.types.length
    · have lineage := (lineage_addType added a).trans (if_pos new)
      have markers := (markersOf_addType added h.built a).trans (if_pos new)
      constructor
      · intro flag plain
        rw [markers, (h.collected base).flags flag plain, lineage, List.exists_mem_cons_iff,
          or_iff_right fun there => unplaced _ there rfl]
      · rw [markers, (h.collected base).override, lineage, List.findSome?_cons,
          lastOverride_eq_none unplaced]
    · have lineage := (lineage_addType added a).trans (if_neg new)
      have markers := (markersOf_addType added h.built a).trans (if_neg new)
      constructor
      · rw [markers, lineage]
        exact (h.collected a).flags
      · rw [markers, lineage]
        exact (h.collected a).override

end AddType

end Forest

/-! ## Requests -/

namespace Catalog

open Forest

variable {c c' : Catalog} {id : ModelId} {placed : List (ModelId × Marker)}

/-- What is placed on a type of a forest that is given markers: those before the first one that is
not taken. The root of the plain types takes none. -/
def placements (f : Forest) (id : ModelId) (markers : List Marker) : List (ModelId × Marker) :=
  if id ≠ plainRoot ∧ id.index < f.types.length then
    (markers.takeWhile Marker.isTaken).map (id, ·)
  else []

/-- What is placed by a request. -/
def Request.places (c : Catalog) : Request → List (ModelId × Marker)
  | mark id markers => placements c.forest id markers
  | _ => []

/-- What is placed by requests, in turn. -/
def placedBy : List Request → Catalog → Log → List (ModelId × Marker)
  | [], _, _ => []
  | request :: rest, c, log =>
    let (_, c', log') := request.act.exec c log
    request.places c ++ placedBy rest c' log'

/-- Whether requests place markers on types only before there are types below them. -/
def Timely : List Request → Catalog → Log → Prop
  | [], _, _ => True
  | request :: rest, c, log =>
    let (_, c', log') := request.act.exec c log
    (∀ e ∈ request.places c, c.forest.IsLeaf e.1) ∧ Timely rest c' log'

theorem forest_onRegistryOf {α : Type} (place : RegistryId) (act : Forest → Act Registry α)
    (c : Catalog) (log : Log) : ((onRegistryOf place act).exec c log).2.1.forest = c.forest := by
  rw [exec_onRegistryOf, onRegistry, Act.exec_on]

/-- A request to mark a type changes the markers of that type, another one adds a type or leaves the
forest as it is. -/
theorem Request.forest_cases (request : Request) (c : Catalog) (log : Log) :
    (∃ id markers, request = .mark id markers) ∨
      request.places c = [] ∧
        ((request.act.exec c log).2.1.forest = c.forest ∨
          ∃ base name module table fields id,
            c.forest.addType base name module table fields =
              (id, (request.act.exec c log).2.1.forest)) := by
  cases request with
  | mark id markers => exact .inl ⟨id, markers, rfl⟩
  | define base name module table declarations =>
    refine .inr ⟨rfl, ?_⟩
    rw [act, Act.exec_silent]
    obtain ⟨result, c', log', ran⟩ : ∃ result c' log',
        (Catalog.define base name module table declarations).exec c log = (result, c', log') :=
      ⟨_, _, _, rfl⟩
    rw [ran]
    obtain rfl | ⟨fields, id, forest, -, added, what⟩ := exec_define_cases ran
    · exact .inl rfl
    · obtain rfl | ⟨models, rfl⟩ := what <;> exact .inr ⟨_, _, _, _, _, id, added⟩
  | register place id given =>
    exact .inr ⟨rfl, .inl (forest_onRegistryOf place (Registry.register · id given) c log)⟩
  | registerModel place id =>
    exact .inr ⟨rfl, .inl (forest_onRegistryOf place (Registry.registerModel · id) c log)⟩
  | clear place => exact .inr ⟨rfl, .inl rfl⟩
  | newRegistry => exact .inr ⟨rfl, .inl rfl⟩
  | newCache provider => exact .inr ⟨rfl, .inl rfl⟩
  | fieldMappings provider id =>
    obtain ⟨c', agrees, ran⟩ := exec_fieldMappings provider id c log
    refine .inr ⟨rfl, .inl ?_⟩
    rw [act, Act.exec_silent, ran]
    exact agrees.forest
  | ownMappings id =>
    obtain ⟨_, c', agrees, ran⟩ := exec_ownMappings id c log
    refine .inr ⟨rfl, .inl ?_⟩
    rw [act, Act.exec_silent, ran]
    exact agrees.forest
  | policy k id =>
    obtain ⟨c', _, agrees, ran⟩ := exec_policy k id c log
    refine .inr ⟨rfl, .inl ?_⟩
    rw [act, Act.exec_silent, ran]
    exact agrees.forest
  | forget k => exact .inr ⟨rfl, .inl rfl⟩

theorem marks_mark (built : c.forest.WellBuilt) (id : ModelId) (markers : List Marker) (log : Log) :
    c.forest.Marks ((Catalog.mark id markers).exec c log).2.1.forest id := by
  induction markers generalizing c with
  | nil => exact .refl c.forest id
  | cons marker rest ih =>
    rw [exec_mark_cons]
    cases marked : c.forest.mark id marker with
    | error why => exact .refl c.forest id
    | ok forest =>
      exact (Marks.of_mark built marked).trans
        (ih (c := { c with forest }) (grows_of_mark built marked).built)

theorem placements_cons {f f' : Forest} {marker : Marker} (marked : f.mark id marker = .ok f')
    (rest : List Marker) (inside : id.index < f.types.length) :
    placements f id (marker :: rest) = (id, marker) :: placements f' id rest := by
  obtain ⟨markers, added, other, -⟩ := mark_eq_ok marked
  have taken : marker.isTaken = true := by
    rcases (f.markersOf id).add_cases marker with ⟨taken, -⟩ | ⟨-, why, refused⟩
    · exact taken
    · rw [added] at refused
      cases refused
  rw [placements, placements, length_mark marked, if_pos ⟨other, inside⟩, if_pos ⟨other, inside⟩,
    List.takeWhile_cons, if_pos taken, List.map_cons]

theorem placements_of_error {f : Forest} {marker : Marker} {why : Failure}
    (refused : f.mark id marker = .error why) (rest : List Marker) :
    placements f id (marker :: rest) = [] := by
  rw [placements]
  split
  · next inside =>
    rcases (f.markersOf id).add_cases marker with ⟨-, n, added⟩ | ⟨untaken, -⟩
    · rw [Forest.mark, added] at refused
      simp [bind, Except.bind, pure, Except.pure, inside.1] at refused
    · rw [List.takeWhile_cons, untaken]
      rfl
  · rfl

theorem mark_outside {f f' : Forest} {marker : Marker} (marked : f.mark id marker = .ok f')
    (outside : ¬ id.index < f.types.length) : f' = f := by
  obtain ⟨markers, -, -, rfl⟩ := mark_eq_ok marked
  rw [Forest.update, List.modify_eq_self (Nat.le_of_not_lt outside)]

/-- Each marker that is taken is placed before the next one is. -/
theorem traced_mark (traced : c.forest.Traced placed) (id : ModelId) (markers : List Marker)
    (log : Log) (timely : ∀ e ∈ placements c.forest id markers, c.forest.IsLeaf e.1) :
    ((Catalog.mark id markers).exec c log).2.1.forest.Traced
      (placed ++ placements c.forest id markers) := by
  induction markers generalizing c placed with
  | nil =>
    have none : placements c.forest id [] = [] := by
      rw [placements]
      split <;> rfl
    rw [none, List.append_nil]
    exact traced
  | cons marker rest ih =>
    rw [exec_mark_cons]
    cases marked : c.forest.mark id marker with
    | error why =>
      rw [placements_of_error marked, List.append_nil]
      exact traced
    | ok forest =>
      by_cases inside : id.index < c.forest.types.length
      · rw [placements_cons marked rest inside] at timely ⊢
        obtain ⟨leaf, timely⟩ := List.forall_mem_cons.1 timely
        rw [List.append_cons]
        refine ih (c := { c with forest }) (traced.mark marked inside leaf) ?_
        intro e he a below
        rw [lineage_mark marked] at below
        exact timely e he a below
      · obtain rfl := mark_outside marked inside
        have none (markers : List Marker) : placements c.forest id markers = [] := by
          rw [placements, if_neg fun both => inside both.2]
        rw [none (marker :: rest), ← none rest]
        refine ih traced ?_
        rw [none]
        exact List.forall_mem_nil _

/-! ## Runs -/

/-- Whether a forest is well built, and every type stands at the head of its lineage. -/
structure Sound (c : Catalog) : Prop where
  built : c.forest.WellBuilt
  headed : c.forest.Headed

theorem Request.sound (request : Request) (h : c.Sound) (log : Log) :
    (request.act.exec c log).2.1.Sound := by
  refine ⟨(request.steps h.built log).built, ?_⟩
  rcases request.forest_cases c log with ⟨id, markers, rfl⟩ | ⟨-, same | ⟨_, _, _, _, _, _, added⟩⟩
  · have marks := marks_mark h.built id markers log
    intro a inside
    rw [act, marks.lineage]
    rw [act, marks.length] at inside
    exact h.headed a inside
  · rw [same]
    exact h.headed
  · exact Headed.addType added h.headed

theorem sound_after (requests : List Request) (h : c.Sound) (log : Log) :
    (after requests c log).Sound := by
  induction requests generalizing c log with
  | nil => exact h
  | cons request rest ih => exact ih (request.sound h log) _

theorem sound_start : Sound {} := by
  refine ⟨wellBuilt_roots, ?_⟩
  have all : ∀ i < 6, ModelId.mk i ∈ (roots.typeAt ⟨i⟩).lineage := by decide
  exact fun id inside => all id.index inside

theorem traced_after (requests : List Request) (traced : c.forest.Traced placed) (log : Log)
    (timely : Timely requests c log) :
    (after requests c log).forest.Traced (placed ++ placedBy requests c log) := by
  induction requests generalizing c placed log with
  | nil =>
    rw [placedBy, List.append_nil]
    exact traced
  | cons request rest ih =>
    obtain ⟨leaves, timely⟩ := timely
    have next : (request.act.exec c log).2.1.forest.Traced (placed ++ request.places c) := by
      rcases request.forest_cases c log with
        ⟨id, markers, rfl⟩ | ⟨none, same | ⟨_, _, _, _, _, _, added⟩⟩
      · exact traced_mark traced id markers log leaves
      · rw [none, List.append_nil, same]
        exact traced
      · rw [none, List.append_nil]
        exact Traced.addType added traced (request.steps traced.built log).built
    rw [placedBy, ← List.append_assoc]
    exact ih next _ timely

theorem timely_cons {request : Request} {rest : List Request} {log : Log} :
    Timely (request :: rest) c log ↔ (∀ e ∈ request.places c, c.forest.IsLeaf e.1) ∧
      Timely rest (request.act.exec c log).2.1 (request.act.exec c log).2.2 := Iff.rfl

theorem timely_of_append {before later : List Request} {log : Log}
    (h : Timely (before ++ later) c log) : Timely before c log := by
  induction before generalizing c log with
  | nil => trivial
  | cons request rest ih => exact ⟨h.1, ih h.2⟩

/-- How far markers reach that are placed on a type: not beyond the types that descend from it, and
not to those with markers of their own. None takes another one away. -/
structure Contained (c c' : Catalog) (id : ModelId) : Prop where
  outside : ∀ a, id ∉ (c.forest.typeAt a).lineage → c'.forest.markersOf a = c.forest.markersOf a
  ofOwn : ∀ a, a ≠ id → (c.forest.typeAt a).markers.isSome = true →
    c'.forest.markersOf a = c.forest.markersOf a
  kept : ∀ a, (c.forest.markersOf a).Kept (c'.forest.markersOf a)
  classified : ∀ (p : Provider) (a : ModelId) (log log' : Log),
    id ∉ (c.forest.typeAt a).lineage →
    ((p.classify a).exec c' log').1 = ((p.classify a).exec c log).1

/-- Whether types have exactly the markers that were placed along their lineages, those below an
exempt one being exempt. -/
structure Inherited (c : Catalog) (placed : List (ModelId × Marker)) : Prop where
  collected : ∀ id, c.forest.Collected placed id
  exempt : ∀ id, ∀ a ∈ (c.forest.typeAt id).lineage, (a, .doNotTouch) ∈ placed →
    ∀ (r : RegistryId) (log : Log),
      (((Provider.registry r).classify id).exec c log).1 = .ok .exempt

theorem inherited_of_traced (traced : c.forest.Traced placed) : Inherited c placed := by
  refine ⟨traced.collected, ?_⟩
  intro id a above marked r log
  have touch : (c.forest.markersOf id).doNotTouch = true :=
    ((traced.collected id).flags .doNotTouch rfl).2 ⟨a, above, marked⟩
  have exempt : ((Provider.registry r).markers c id).doNotTouch = true := by
    rw [Provider.markers, Registry.markersOf, Markers.join, touch, Bool.true_or]
  rw [classify_eq, Provider.classified, if_pos exempt]

/-- Whatever a program does, in whatever order: placing markers on a type changes nothing of types
that do not descend from it or have markers of their own, and takes no marker from any type. If the
program places markers on types only before there are types below them, then at every moment each
type has exactly the markers that were placed along its lineage. -/
theorem inherited_of_timely (requests : List Request) (log : Log) :
    (∀ id markers log', Contained (after requests {} log)
      ((Catalog.mark id markers).exec (after requests {} log) log').2.1 id) ∧
    (Timely requests {} log → ∀ before, before <+: requests →
      Inherited (after before {} log) (placedBy before {} log)) := by
  refine ⟨?_, ?_⟩
  · intro id markers log'
    have sound := sound_after requests sound_start log
    have marks := marks_mark sound.built id markers log'
    obtain ⟨result, c', log₁, ran⟩ : ∃ result c' log₁,
        (Catalog.mark id markers).exec (after requests {} log) log' = (result, c', log₁) :=
      ⟨_, _, _, rfl⟩
    rw [ran] at marks ⊢
    obtain ⟨-, -, same⟩ := exec_mark_same sound.built id markers ran
    refine ⟨fun a apart => marks.outside apart,
      fun a apart own => marks.ofOwn sound.built sound.headed apart own, marks.kept, ?_⟩
    intro p a log₂ log₃ apart
    rw [classify_eq, classify_eq, (same p a apart).classified]
  · rintro timely before ⟨later, rfl⟩
    have traced := traced_after before traced_roots log (timely_of_append timely)
    rw [List.nil_append] at traced
    exact inherited_of_traced traced

/-- A type that is signed only has two types below it, the first of which is exempt and has another
one below. The last marker of the first type is refused. -/
def familyRequests : List Request := [
  .define sealedRoot "Parent" "shop" none [],
  .mark ⟨6⟩ [.doNotEncrypt, .tableOverride (.text "orders"), .tableOverride .null],
  .define ⟨6⟩ "Child" "shop" none [],
  .mark ⟨7⟩ [.doNotTouch],
  .define ⟨7⟩ "Grandchild" "shop" none [],
  .define ⟨6⟩ "Sibling" "shop" none []]

/-- The root of the plain types apart, a type is a leaf if no type of the forest descends from it.
-/
theorem isLeaf_of_forall_lt {f : Forest} (other : id ≠ plainRoot)
    (h : ∀ i < f.types.length, id ∈ (f.typeAt ⟨i⟩).lineage → ModelId.mk i = id) : f.IsLeaf id := by
  intro a below
  by_cases inside : a.index < f.types.length
  · exact h a.index inside below
  · rw [typeAt_of_le (Nat.le_of_not_lt inside)] at below
    exact absurd (List.mem_singleton.1 below) other

theorem isLeaf_of_mem_placements {f : Forest} {markers : List Marker} (leaf : f.IsLeaf id) :
    ∀ e ∈ placements f id markers, f.IsLeaf e.1 := by
  intro e he
  rw [placements] at he
  split at he
  · obtain ⟨marker, -, rfl⟩ := List.mem_map.1 he
    exact leaf
  · cases he

/-- The type below the exempt one is exempt, the one beside it is not. -/
theorem inherited_of_timely_sample :
    Inherited (after familyRequests {} {})
      [(⟨6⟩, .doNotEncrypt), (⟨6⟩, .tableOverride (.text "orders")), (⟨7⟩, .doNotTouch)] ∧
    (((Provider.registry sharedRegistry).classify ⟨8⟩).exec (after familyRequests {} {}) {}).1 =
      .ok .exempt ∧
    ¬ ((after familyRequests {} {}).forest.markersOf ⟨9⟩).Has .doNotTouch := by
  have defines {c : Catalog} {base : ModelId} {name module : String} {table : Option Value}
      {declarations : List Declaration} :
      ∀ e ∈ (Request.define base name module table declarations).places c, c.forest.IsLeaf e.1 := by
    simp [Request.places]
  have timely : Timely familyRequests {} {} :=
    timely_cons.2 ⟨defines, timely_cons.2
      ⟨isLeaf_of_mem_placements (isLeaf_of_forall_lt (by decide) (by decide +kernel)),
        timely_cons.2 ⟨defines, timely_cons.2
          ⟨isLeaf_of_mem_placements (isLeaf_of_forall_lt (by decide) (by decide +kernel)),
            timely_cons.2 ⟨defines, timely_cons.2 ⟨defines, trivial⟩⟩⟩⟩⟩⟩
  have inherited :=
    (inherited_of_timely familyRequests {}).2 timely familyRequests (List.prefix_refl _)
  have placed : placedBy familyRequests {} {} =
      [(⟨6⟩, .doNotEncrypt), (⟨6⟩, .tableOverride (.text "orders")), (⟨7⟩, .doNotTouch)] := rfl
  rw [placed] at inherited
  have child : ((after familyRequests {} {}).forest.typeAt ⟨8⟩).lineage =
      [⟨8⟩, ⟨7⟩, ⟨6⟩, sealedRoot, documentRoot, plainRoot] := rfl
  have sibling : ((after familyRequests {} {}).forest.typeAt ⟨9⟩).lineage =
      [⟨9⟩, ⟨6⟩, sealedRoot, documentRoot, plainRoot] := rfl
  have below : ModelId.mk 7 ∈ ((after familyRequests {} {}).forest.typeAt ⟨8⟩).lineage := by
    rw [child]
    decide
  have exempt := inherited.exempt ⟨8⟩ ⟨7⟩ below (by simp) sharedRegistry {}
  refine ⟨inherited, exempt, ?_⟩
  rw [(inherited.collected ⟨9⟩).flags .doNotTouch rfl, sibling]
  simp [sealedRoot, documentRoot, plainRoot]

end Catalog

end RecordSeal
