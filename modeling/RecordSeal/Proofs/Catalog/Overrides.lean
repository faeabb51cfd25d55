import RecordSeal.Proofs.Act
import RecordSeal.Proofs.Catalog.History

set_option autoImplicit false

/-! # Overrides that name a table

A program asks a catalog for one thing after the other (`Catalog.Request`); what fails stays done as
far as it came. An override gets into a catalog by a marker, which is refused if it names no table,
or by a registration, which drops one that names none. So an override that a registry reports
always names a table (`Catalog.isGiven_of_reachable`). -/

namespace RecordSeal

/-! ## Requests -/

namespace Catalog

/-- What a program may ask of a catalog. -/
inductive Request where
  | define (base : ModelId) (name module : String) (table : Option Value)
      (declarations : List Declaration)
  | mark (id : ModelId) (markers : List Marker)
  | register (place : RegistryId) (id : ModelId) (given : Registration)
  | registerModel (place : RegistryId) (id : ModelId)
  | clear (place : RegistryId)
  | newRegistry
  | newCache (provider : Provider)
  | fieldMappings (provider : Provider) (id : ModelId)
  | ownMappings (id : ModelId)
  | policy (k : CacheId) (id : ModelId)
  | forget (k : CacheId)

/-- Does something with a registry and the types that there are. -/
def onRegistryOf {α : Type} (place : RegistryId) (act : Forest → Act Registry α) :
    Act Catalog α := do
  let c ← get
  onRegistry place (act c.forest)

/-- Does what is asked for. -/
def Request.act : Request → Act Catalog Unit
  | define base name module table declarations => do
    let _ ← Catalog.define base name module table declarations
  | mark id markers => Catalog.mark id markers
  | register place id given => onRegistryOf place (Registry.register · id given)
  | registerModel place id => onRegistryOf place (Registry.registerModel · id)
  | clear place => onRegistry place Registry.clear
  | newRegistry => do let _ ← Catalog.newRegistry
  | newCache provider => do let _ ← Catalog.newCache provider
  | fieldMappings provider id => do let _ ← provider.fieldMappings id
  | ownMappings id => do let _ ← Catalog.ownMappings id
  | policy k id => do let _ ← Cache.policy k id
  | forget k => Cache.clear k

/-- The catalog after requests, whether they ended well or failed. -/
def after : List Request → Catalog → Log → Catalog
  | [], c, _ => c
  | request :: rest, c, log =>
    let (_, c', log') := request.act.exec c log
    after rest c' log'

/-- Whether a program may come to a catalog. -/
def Reachable (c : Catalog) : Prop := ∃ requests log, after requests {} log = c

end Catalog

/-! ## Markers -/

/-- Whether an override that is there names a table. -/
def Markers.NamesTable (m : Markers) : Prop := ∀ table ∈ m.tableOverride, table.isGiven = true

theorem Markers.namesTable_empty : NamesTable {} := by simp [NamesTable]

theorem Markers.NamesTable.add {m n : Markers} (h : m.NamesTable) {marker : Marker}
    (added : m.add marker = .ok n) : n.NamesTable := by
  cases marker with
  | tableOverride table =>
    rw [Markers.add] at added
    split at added
    · next given =>
      cases added
      simpa [NamesTable] using given
    · cases added
  | _ =>
    cases added
    exact h

theorem Markers.NamesTable.join {m n : Markers} (h : m.NamesTable) (h' : n.NamesTable) :
    (m.join n).NamesTable := by
  intro table
  rw [Markers.join]
  cases found : n.tableOverride with
  | none => exact h table
  | some other =>
    simp only [Option.some_or, Option.mem_def, Option.some.injEq]
    rintro rfl
    exact h' _ found

theorem Registration.namesTable_markers (r : Registration) : r.markers.NamesTable := by
  intro table found
  have kept : (some r.tableOverride).filter Value.isGiven = some table := found
  exact (Option.filter_eq_some_iff.1 kept).2

/-! ## Catalogs -/

namespace Catalog

/-- Whether all overrides that types carry or were registered with name tables. -/
structure Overrides (c : Catalog) : Prop where
  types : ∀ id, ∀ m ∈ (c.forest.typeAt id).markers, m.NamesTable
  registries : ∀ r id, ∀ m ∈ (c.registryAt r).markers.get? id, m.NamesTable

variable {c c' : Catalog}

theorem Overrides.inherited (h : c.Overrides) (id : ModelId) :
    (c.forest.markersOf id).NamesTable := by
  rw [Forest.markersOf]
  cases found : c.forest.nearest (·.markers) id with
  | none => exact Markers.namesTable_empty
  | some m =>
    obtain ⟨a, -, own⟩ := List.exists_of_findSome?_eq_some found
    exact h.types a m own

theorem Overrides.markersOf (h : c.Overrides) (r : RegistryId) (id : ModelId) :
    ((c.registryAt r).markersOf c.forest id).NamesTable := by
  refine (h.inherited id).join ?_
  cases found : (c.registryAt r).markers.get? id with
  | none => exact Markers.namesTable_empty
  | some m => exact h.registries r id m found

theorem Overrides.agrees (h : c.Overrides) (agrees : c.Agrees c') : c'.Overrides := by
  refine ⟨?_, ?_⟩
  · rw [agrees.forest]
    exact h.types
  · intro r
    rw [(agrees.registries r).markers]
    exact h.registries r

theorem Overrides.set (h : c.Overrides) {place : RegistryId} {r : Registry}
    (markers : ∀ id, ∀ m ∈ r.markers.get? id, m.NamesTable) :
    Overrides { c with registries := c.registries.set place.index r } := by
  refine ⟨h.types, ?_⟩
  intro j
  rcases getD_set c.registries r {} place.index j.index with old | ⟨-, new⟩
  · rw [registryAt, old]
    exact h.registries j
  · rw [registryAt, new]
    exact markers

theorem overrides_start : Overrides {} := by
  have empty (r : RegistryId) : registryAt {} r = {} := by
    cases r with
    | mk i => cases i <;> rfl
  refine ⟨?_, ?_⟩
  · intro id m hm
    rw [Forest.markers_roots] at hm
    cases hm
  · intro r id m hm
    rw [empty] at hm
    cases hm

/-! ## What each request keeps -/

/-- Overrides that name tables before do so after. -/
def Preserves (c c' : Catalog) : Prop := c.Overrides → c'.Overrides

instance : Std.Refl Preserves := ⟨fun _ => id⟩

instance : IsTrans Catalog Preserves := ⟨fun _ _ _ h h' own => h' (h own)⟩

theorem keeps_of_agrees {α : Type} {act : Act Catalog α}
    (asks : ∀ c log, ∃ answer c' log', c.Agrees c' ∧ act.exec c log = (answer, c', log')) :
    act.Keeps Preserves := by
  intro c log own
  obtain ⟨answer, c', log', agrees, ran⟩ := asks c log
  rw [ran]
  exact own.agrees agrees

theorem keeps_onRegistry {α : Type} {place : RegistryId} {act : Act Registry α}
    (markers : ∀ r log, ∀ id, ∀ m ∈ ((act.exec r log).2.1).markers.get? id,
      m ∈ r.markers.get? id ∨ m.NamesTable) : (onRegistry place act).Keeps Preserves := by
  intro c log own
  rw [onRegistry, Act.exec_on]
  refine own.set ?_
  intro id m hm
  rcases markers _ log id m hm with old | new
  · exact own.registries place id m old
  · exact new

theorem keeps_register (f : Forest) (place : RegistryId) (id : ModelId) (given : Registration) :
    (onRegistry place (Registry.register f id given)).Keeps Preserves := by
  refine keeps_onRegistry ?_
  intro r log other m hm
  obtain ⟨models, _, registered⟩ := exec_register f id given r log
  rw [registered] at hm
  replace hm : m ∈ (r.markers.insert id given.markers).get? other := hm
  rw [Assoc.get?_insert] at hm
  split at hm
  · cases hm
    exact .inr given.namesTable_markers
  · exact .inl hm

theorem keeps_registerModel (f : Forest) (place : RegistryId) (id : ModelId) :
    (onRegistry place (Registry.registerModel f id)).Keeps Preserves := by
  refine keeps_onRegistry ?_
  intro r log other m hm
  obtain ⟨models, _, named⟩ := exec_registerModel f id r log
  rw [named] at hm
  exact .inl hm

theorem keeps_mark (id : ModelId) (markers : List Marker) :
    (Catalog.mark id markers).Keeps Preserves := by
  induction markers with
  | nil => exact Act.keeps_pure _
  | cons marker rest ih =>
    intro c log own
    rw [exec_mark_cons]
    cases marked : c.forest.mark id marker with
    | error why => exact own
    | ok forest =>
      obtain ⟨markers, added, -, rfl⟩ := Forest.mark_eq_ok marked
      refine ih _ _ ⟨?_, own.registries⟩
      intro a m hm
      rw [Forest.typeAt_update_markers] at hm
      split at hm
      · cases hm
        exact (own.inherited id).add added
      · exact own.types a m hm

theorem keeps_define (base : ModelId) (name module : String) (table : Option Value)
    (declarations : List Declaration) :
    (Catalog.define base name module table declarations).Keeps Preserves := by
  intro c log own
  obtain ⟨result, c', log', ran⟩ : ∃ result c' log',
      (Catalog.define base name module table declarations).exec c log = (result, c', log') :=
    ⟨_, _, _, rfl⟩
  rw [ran]
  obtain rfl | ⟨fields, id, forest, -, added, what⟩ := exec_define_cases ran
  · exact own
  · have there : Overrides { c with forest } := by
      refine ⟨?_, own.registries⟩
      intro a m hm
      replace hm : m ∈ (forest.typeAt a).markers := hm
      rw [Forest.typeAt_addType added] at hm
      split at hm
      · cases hm
      · exact own.types a m hm
    obtain rfl | ⟨models, rfl⟩ := what
    · exact there
    · exact there.set (own.registries sharedRegistry)

theorem registryAt_append (c : Catalog) (j : RegistryId) :
    registryAt { c with registries := c.registries ++ [({} : Registry)] } j = c.registryAt j := by
  simp only [registryAt, List.getD_eq_getElem?_getD, List.getElem?_append]
  split
  · rfl
  · next outside =>
    rw [List.getElem?_eq_none (Nat.le_of_not_lt outside)]
    cases j.index - c.registries.length <;> rfl

theorem keeps_newRegistry : Catalog.newRegistry.Keeps Preserves := by
  intro c log own
  refine ⟨own.types, ?_⟩
  intro j
  exact registryAt_append c j ▸ own.registries j

theorem keeps_fieldMappings (provider : Provider) (id : ModelId) :
    (provider.fieldMappings id).Keeps Preserves := by
  refine keeps_of_agrees ?_
  intro c log
  obtain ⟨c', agrees, ran⟩ := exec_fieldMappings provider id c log
  exact ⟨_, c', log, agrees, ran⟩

theorem keeps_ownMappings (id : ModelId) : (Catalog.ownMappings id).Keeps Preserves := by
  refine keeps_of_agrees ?_
  intro c log
  obtain ⟨answer, c', agrees, ran⟩ := exec_ownMappings id c log
  exact ⟨answer, c', log, agrees, ran⟩

/-- Every request keeps it that overrides name tables. -/
theorem Request.keeps (request : Request) : request.act.Keeps Preserves := by
  have silent {α : Type} {act : Act Catalog α} (h : act.Keeps Preserves) :
      (do let _ ← act : Act Catalog Unit).Keeps Preserves := h.bind fun _ => Act.keeps_pure _
  have reads {α : Type} {place : RegistryId} {act : Forest → Act Registry α}
      (h : ∀ f, (onRegistry place (act f)).Keeps Preserves) :
      (onRegistryOf place act).Keeps Preserves := Act.keeps_get.bind fun c => h c.forest
  cases request with
  | define base name module table declarations => exact silent (keeps_define _ _ _ _ _)
  | mark id markers => exact keeps_mark id markers
  | register place id given => exact reads fun f => keeps_register f place id given
  | registerModel place id => exact reads fun f => keeps_registerModel f place id
  | clear place => exact keeps_onRegistry fun r log id m hm => by cases hm
  | newRegistry => exact silent keeps_newRegistry
  | newCache provider => exact silent fun c log own => ⟨own.types, own.registries⟩
  | fieldMappings provider id => exact silent (keeps_fieldMappings provider id)
  | ownMappings id => exact silent (keeps_ownMappings id)
  | policy k id => exact silent (keeps_of_agrees fun c log => ⟨_, exec_policy k id c log⟩)
  | forget k => exact fun c log own => ⟨own.types, own.registries⟩

theorem overrides_after (requests : List Request) (c : Catalog) (log : Log) (own : c.Overrides) :
    (after requests c log).Overrides := by
  induction requests generalizing c log with
  | nil => exact own
  | cons request rest ih => exact ih _ _ (request.keeps c log own)

/-- Whatever a program does, an override that a registry reports names a table. -/
theorem isGiven_of_reachable (h : c.Reachable) {r : RegistryId} {id : ModelId} {table : Value}
    (found : ((c.registryAt r).markersOf c.forest id).tableOverride = some table) :
    table.isGiven = true := by
  obtain ⟨requests, log, rfl⟩ := h
  exact (overrides_after requests {} log overrides_start).markersOf r id table found

end Catalog

end RecordSeal
