import RecordSeal.Proofs.Catalog
import RecordSeal.Proofs.Forest
import RecordSeal.Proofs.Result

set_option autoImplicit false

/-! # Types that nobody registers

The mappings of a type that is not registered explicitly are those of its fields, whichever registry
is asked and whatever happened before, and a policy that a cache keeps was worked out from them
under markers that the type still has (`Catalog.Introspects`). Whatever is defined, marked,
registered, cleared and asked for keeps it so (`Catalog.introspects_of_history`). -/

namespace RecordSeal

/-! ## Fields -/

theorem Field.isDeclared_ofDeclaration {d : Declaration} {f : Field}
    (h : ofDeclaration d = .ok f) : f.IsDeclared := by
  rw [ofDeclaration] at h
  split at h
  · cases h
    exact fun _ => rfl
  · rw [ofPlain] at h
    split at h
    · cases h
    · cases h
      exact fun none => (Option.or_eq_none_iff.1 none).2
  · rw [ofMarked] at h
    simp only [bind, Except.bind, pure, Except.pure] at h
    split at h
    · cases h
    · split at h
      · cases h
      · split at h
        · cases h
        · cases h
          exact fun none => none

theorem Catalog.declared_fieldsOf {declarations : List Declaration} {fields : Assoc String Field}
    (h : fieldsOf declarations = .ok fields) : ∀ e ∈ fields, e.2.IsDeclared := by
  induction declarations generalizing fields with
  | nil =>
    cases h
    simp
  | cons d rest ih =>
    rw [fieldsOf] at h
    obtain ⟨field, first, h⟩ := exists_of_bind_eq_ok h
    obtain ⟨tail, others, h⟩ := exists_of_bind_eq_ok h
    cases h
    exact List.forall_mem_cons.2 ⟨Field.isDeclared_ofDeclaration first, ih others⟩

theorem Catalog.declared_seen {declarations : List Declaration} {fields : Assoc String Field}
    (h : fieldsOf declarations = .ok fields) :
    ∀ e ∈ fields.filter fun e => !Declaration.isHiddenName e.1, e.2.IsDeclared := by
  intro e he
  exact declared_fieldsOf h e (List.mem_filter.1 he).1

/-! ## What is known of a type -/

/-- Whether a registry answers about a type as an empty one does. -/
structure Registry.Introspects (r : Registry) (f : Forest) (id : ModelId) : Prop where
  mappings : r.mappingsOf f id = ({} : Registry).mappingsOf f id
  markers : r.markers.get? id = none

/-- Whether a policy is what classification makes of the fields of a type under some markers. -/
def ClassPolicy.ComesOf (p : ClassPolicy) (markers : Markers) (f : Forest) (id : ModelId) : Prop :=
  (markers.doNotTouch = true ∧ p = .exempt) ∨
    (markers.doNotTouch = false ∧ ∃ mappings, ({} : Registry).mappingsOf f id = .ok mappings ∧
      classifyWith markers mappings = .ok p)

/-- Whether all that is known of a type are its fields and its markers. A policy that a cache of a
registry answers with may come of earlier markers, but of none that the type does not have. -/
structure Catalog.Introspects (c : Catalog) (model : ModelId) : Prop where
  built : c.forest.WellBuilt
  registries : ∀ r, (c.registryAt r).Introspects c.forest model
  policies : ∀ k r p, (c.cacheAt k).provider = .registry r → c.policyOf k model = .ok p →
    ∃ markers, markers.Within (c.forest.markersOf model) ∧ p.ComesOf markers c.forest model

theorem Forest.Grows.mappingsOf {f f' : Forest} (h : f.Grows f') {id : ModelId}
    {mappings : List FieldMapping} (worked : ({} : Registry).mappingsOf f id = .ok mappings) :
    ({} : Registry).mappingsOf f' id = .ok mappings := by
  change (if (f.typeAt id).isDocument then Registry.mappingsOfFields (f.typeAt id).fields
    else .error _) = _ at worked
  show (if (f'.typeAt id).isDocument then Registry.mappingsOfFields (f'.typeAt id).fields
    else .error _) = _
  by_cases inside : id.index < f.types.length
  · obtain ⟨kind, fields⟩ := h.kept id inside
    rw [ModelType.isDocument, kind, fields]
    rw [ModelType.isDocument] at worked
    split at worked
    · next document => rw [if_pos document, worked]
    · cases worked
  · -- Outside the forest there are no fields to work out anything from.
    rw [Forest.typeAt_of_le (Nat.le_of_not_lt inside)] at worked
    cases worked

theorem ClassPolicy.ComesOf.grows {p : ClassPolicy} {markers : Markers} {f f' : Forest}
    {id : ModelId} (h : p.ComesOf markers f id) (grows : f.Grows f') : p.ComesOf markers f' id := by
  rcases h with exempt | ⟨active, mappings, worked, classified⟩
  · exact .inl exempt
  · exact .inr ⟨active, mappings, grows.mappingsOf worked, classified⟩

namespace Catalog

variable {c c' : Catalog} {model : ModelId}

/-- What a registry classifies comes of the markers that the type has. -/
theorem comesOf_of_classified (registries : ∀ r, (c.registryAt r).Introspects c.forest model)
    {r : RegistryId} {p : ClassPolicy}
    (h : (Provider.registry r).classified c model = .ok p) :
    ∃ markers, markers.Within (c.forest.markersOf model) ∧ p.ComesOf markers c.forest model := by
  have markers : (Provider.registry r).markers c model = (c.forest.markersOf model).join {} := by
    rw [Provider.markers, Registry.markersOf, (registries r).markers]
    rfl
  refine ⟨_, Markers.join_within _, ?_⟩
  rw [Provider.classified, markers] at h
  split at h
  · next exempt =>
    cases h
    exact .inl ⟨exempt, rfl⟩
  · next active =>
    rw [Provider.mappingsOf, (registries r).mappings] at h
    obtain ⟨mappings, worked, h⟩ := exists_of_bind_eq_ok h
    exact .inr ⟨by simpa using active, mappings, worked, h⟩

theorem Introspects.agrees (h : c.Introspects model) (agrees : c.Agrees c') :
    c'.Introspects model := by
  have registries (r : RegistryId) : (c'.registryAt r).Introspects c'.forest model := by
    rw [agrees.forest]
    exact ⟨((agrees.registries r).mappings model).trans (h.registries r).mappings,
      by rw [(agrees.registries r).markers, (h.registries r).markers]⟩
  refine ⟨agrees.forest ▸ h.built, registries, ?_⟩
  intro k r p provider policy
  rw [agrees.providers] at provider
  rw [agrees.policies] at policy
  rw [agrees.forest]
  exact h.policies k r p provider policy

/-- If the forest grows, registries learn nothing of a type, and caches of registries keep nothing
new for it, then no more is known of the type than before. -/
theorem Introspects.step (h : c.Introspects model) (grows : c.forest.Grows c'.forest)
    (markers : ∀ r, (c'.registryAt r).markers.get? model = none)
    (mappings : ∀ r, (c'.registryAt r).mappings.get? model = none ∨
      (c'.registryAt r).mappings.get? model = (c.registryAt r).mappings.get? model)
    (kept : ∀ k p, (c'.cacheAt k).policies.get? model = some p →
      (c'.cacheAt k).provider = (c.cacheAt k).provider ∧
      (c.cacheAt k).policies.get? model = some p) :
    c'.Introspects model := by
  have registries (r : RegistryId) : (c'.registryAt r).Introspects c'.forest model := by
    refine ⟨?_, markers r⟩
    cases found : (c'.registryAt r).mappings.get? model with
    | none => rw [Registry.mappingsOf, found]; rfl
    | some known =>
      -- What is kept was worked out before, from fields that have not changed since.
      have before : (c.registryAt r).mappings.get? model = some known := by
        rcases mappings r with none | same
        · rw [none] at found
          cases found
        · rw [← same, found]
      have worked := (h.registries r).mappings
      rw [Registry.mappingsOf, before] at worked
      rw [Registry.mappingsOf, found, grows.mappingsOf worked.symm]
  refine ⟨grows.built, registries, ?_⟩
  intro k r p provider policy
  cases found : (c'.cacheAt k).policies.get? model with
  | none =>
    rw [policyOf, found, provider] at policy
    exact comesOf_of_classified registries policy
  | some p' =>
    obtain ⟨same, before⟩ := kept k p' found
    obtain rfl : p' = p := by
      rw [policyOf, found] at policy
      exact Except.ok.inj policy
    obtain ⟨markers, within, comes⟩ := h.policies k r p' (same ▸ provider)
        (by rw [policyOf, before])
    exact ⟨markers, within.trans (grows.markers model), comes.grows grows⟩

/-! ## What each operation does -/

/-- A registry that knows nothing of the type may take the place of another one. -/
theorem Introspects.set (h : c.Introspects model) {place : RegistryId} {r : Registry}
    (markers : r.markers.get? model = none)
    (mappings : r.mappings.get? model = none ∨
      r.mappings.get? model = (c.registryAt place).mappings.get? model) :
    Introspects { c with registries := c.registries.set place.index r } model := by
  refine h.step (.refl h.built) ?_ ?_ fun _ _ kept => ⟨rfl, kept⟩
  · intro j
    rcases getD_set c.registries r {} place.index j.index with old | ⟨-, new⟩
    · rw [registryAt, old, ← registryAt, (h.registries j).markers]
    · rw [registryAt, new, markers]
  · intro j
    rcases getD_set c.registries r {} place.index j.index with old | ⟨same, new⟩
    · exact .inr (by rw [registryAt, old, ← registryAt])
    · rw [registryAt, new, registryAt, same]
      exact mappings

theorem exec_registerModel (f : Forest) (id : ModelId) (r : Registry) (log : Log) :
    ∃ models log', (Registry.registerModel f id).exec r log =
      (.ok (), { r with models }, log') := by
  unfold Registry.registerModel
  rw [Act.exec_bind, Act.exec_get]
  dsimp only
  cases r.models.get? (f.typeAt id).name with
  | none => exact ⟨_, _, rfl⟩
  | some previous =>
    dsimp only
    split <;> exact ⟨_, _, rfl⟩

/-- What a registration leaves of a registry. Without a table name an earlier one stays. -/
theorem exec_register (f : Forest) (id : ModelId) (given : Registration) (r : Registry)
    (log : Log) :
    ∃ models log', (Registry.register f id given).exec r log =
      (.ok (), {
        mappings := r.mappings.insert id given.mappings
        markers := r.markers.insert id given.markers
        tables := if given.table.isGiven then r.tables.insert id given.table else r.tables
        models }, log') := by
  obtain ⟨models, log', named⟩ := exec_registerModel f id
    { r with
      mappings := r.mappings.insert id given.mappings
      markers := r.markers.insert id given.markers
      tables := if given.table.isGiven then r.tables.insert id given.table else r.tables } log
  rw [Registry.register, Act.exec_bind, Act.exec_modify]
  dsimp only
  rw [Act.exec_bind, named]
  exact ⟨models, _, rfl⟩

theorem Introspects.register (h : c.Introspects model) {place : RegistryId} {other : ModelId}
    (apart : other ≠ model) {f : Forest} {given : Registration} {log log' : Log}
    {result : Except Failure Unit}
    (ran : (onRegistry place (Registry.register f other given)).exec c log = (result, c', log')) :
    c'.Introspects model := by
  obtain ⟨models, _, registered⟩ := exec_register f other given (c.registryAt place) log
  rw [onRegistry, Act.exec_on, registered] at ran
  cases ran
  have different : ¬ (other == model) = true := by simpa using apart
  refine h.set ?_ (.inr ?_)
  · show ((c.registryAt place).markers.insert other given.markers).get? model = none
    rw [Assoc.get?_insert, if_neg different, (h.registries place).markers]
  · show ((c.registryAt place).mappings.insert other given.mappings).get? model = _
    rw [Assoc.get?_insert, if_neg different]

theorem Introspects.clear (h : c.Introspects model) {place : RegistryId} {log log' : Log}
    {result : Except Failure Unit}
    (ran : (onRegistry place Registry.clear).exec c log = (result, c', log')) :
    c'.Introspects model := by
  rw [onRegistry, Act.exec_on, Registry.clear, Act.exec_set] at ran
  cases ran
  exact h.set rfl (.inl rfl)

theorem Introspects.newRegistry (h : c.Introspects model) {log log' : Log}
    {result : Except Failure RegistryId}
    (ran : Catalog.newRegistry.exec c log = (result, c', log')) : c'.Introspects model := by
  cases ran
  refine h.step (.refl h.built) ?_ ?_ fun _ _ kept => ⟨rfl, kept⟩
  · intro j
    rcases getD_append c.registries {} {} j.index with old | new
    · rw [registryAt, old, ← registryAt, (h.registries j).markers]
    · rw [registryAt, new]
      rfl
  · intro j
    rcases getD_append c.registries {} {} j.index with old | new
    · exact .inr (by rw [registryAt, old, ← registryAt])
    · exact .inl (by rw [registryAt, new]; rfl)

theorem Introspects.newCache (h : c.Introspects model) {provider : Provider} {log log' : Log}
    {result : Except Failure CacheId}
    (ran : (Catalog.newCache provider).exec c log = (result, c', log')) :
    c'.Introspects model := by
  cases ran
  refine h.step (.refl h.built) (fun j => (h.registries j).markers) (fun _ => .inr rfl) ?_
  intro k p kept
  rcases getD_append c.caches { provider } { provider := .registry sharedRegistry } k.index with
    old | new
  · rw [cacheAt, old, ← cacheAt] at kept ⊢
    exact ⟨rfl, kept⟩
  · rw [cacheAt, new] at kept
    cases kept

theorem Introspects.forget (h : c.Introspects model) {k : CacheId} {log log' : Log}
    {result : Except Failure Unit}
    (ran : (Cache.clear k).exec c log = (result, c', log')) : c'.Introspects model := by
  cases ran
  refine h.step (.refl h.built) (fun j => (h.registries j).markers) (fun _ => .inr rfl) ?_
  intro j p kept
  rcases getD_modify c.caches { provider := .registry sharedRegistry } ({ · with policies := [] })
    k.index j.index with old | ⟨-, emptied⟩
  · rw [cacheAt, old, ← cacheAt] at kept ⊢
    exact ⟨rfl, kept⟩
  · rw [cacheAt, emptied] at kept
    cases kept

/-- Markers are placed in turn until one is refused. -/
theorem exec_mark_cons (id : ModelId) (marker : Marker) (rest : List Marker) (c : Catalog)
    (log : Log) :
    (Catalog.mark id (marker :: rest)).exec c log =
      match c.forest.mark id marker with
      | .error why => (.error why, c, log)
      | .ok forest => (Catalog.mark id rest).exec { c with forest } log := by
  rw [Catalog.mark, Act.exec_bind, Act.exec_get]
  dsimp only
  rw [Act.exec_bind, Act.exec_ofExcept]
  cases c.forest.mark id marker <;> rfl

theorem Introspects.mark (h : c.Introspects model) {id : ModelId} {markers : List Marker}
    {log log' : Log} {result : Except Failure Unit}
    (ran : (Catalog.mark id markers).exec c log = (result, c', log')) : c'.Introspects model := by
  induction markers generalizing c log with
  | nil =>
    cases ran
    exact h
  | cons marker rest ih =>
    rw [exec_mark_cons] at ran
    cases marked : c.forest.mark id marker with
    | error why =>
      rw [marked] at ran
      cases ran
      exact h
    | ok forest =>
      rw [marked] at ran
      refine ih (c := { c with forest }) (h.step (Forest.grows_of_mark h.built marked) ?_ ?_ ?_) ran
      · exact fun j => (h.registries j).markers
      · exact fun _ => .inr rfl
      · exact fun _ _ kept => ⟨rfl, kept⟩

/-- A definition leaves the catalog as it was, or adds a type that the shared registry may know by
its name. -/
theorem exec_define_cases {base : ModelId} {name module : String} {table : Option Value}
    {declarations : List Declaration} {log log' : Log} {result : Except Failure ModelId}
    (ran : (Catalog.define base name module table declarations).exec c log = (result, c', log')) :
    c' = c ∨ ∃ fields id forest,
      fieldsOf (declarations.map (withInherited c.forest base)) = .ok fields ∧
      c.forest.addType base name module
        (ownTable (c.forest.typeAt base).isDocument table declarations)
        (fields.filter fun e => !Declaration.isHiddenName e.1) = (id, forest) ∧
      (c' = { c with forest } ∨ ∃ models, c' = { c with
        forest
        registries := c.registries.set sharedRegistry.index
          { c.registryAt sharedRegistry with models } }) := by
  rw [Catalog.define, Act.exec_bind, Act.exec_get] at ran
  dsimp only at ran
  rw [Act.exec_bind, Act.exec_ofExcept] at ran
  cases described : fieldsOf (declarations.map (withInherited c.forest base)) with
  | error why =>
    rw [described] at ran
    cases ran
    exact .inl rfl
  | ok fields =>
    rw [described] at ran
    dsimp only at ran
    rw [Act.exec_bind, Act.exec_ofExcept] at ran
    cases checked : checkDefinition (c.forest.typeAt base).isDocument name declarations with
    | error why =>
      rw [checked] at ran
      cases ran
      exact .inl rfl
    | ok done =>
      rw [checked] at ran
      dsimp only at ran
      cases added : c.forest.addType base name module
          (ownTable (c.forest.typeAt base).isDocument table declarations)
          (fields.filter fun e => !Declaration.isHiddenName e.1) with
      | mk id forest =>
        refine .inr ⟨fields, id, forest, rfl, added, ?_⟩
        rw [added, Act.exec_bind, Act.exec_set] at ran
        dsimp only at ran
        split at ran
        · obtain ⟨models, _, named⟩ := exec_registerModel forest id
            (registryAt { c with forest } sharedRegistry) log
          rw [Act.exec_bind, onRegistry, Act.exec_on, named] at ran
          cases ran
          exact .inr ⟨models, rfl⟩
        · cases ran
          exact .inl rfl

theorem Introspects.define (h : c.Introspects model) {base : ModelId} {name module : String}
    {table : Option Value} {declarations : List Declaration} {log log' : Log}
    {result : Except Failure ModelId}
    (ran : (Catalog.define base name module table declarations).exec c log = (result, c', log')) :
    c'.Introspects model := by
  obtain rfl | ⟨fields, id, forest, described, added, what⟩ := exec_define_cases ran
  · exact h
  · have there : Introspects { c with forest } model :=
      h.step (Forest.grows_of_addType h.built (declared_seen described) added)
        (fun j => (h.registries j).markers) (fun _ => .inr rfl) fun _ _ kept => ⟨rfl, kept⟩
    obtain rfl | ⟨models, rfl⟩ := what
    · exact there
    · -- A name by which a type is known changes neither mappings nor markers.
      exact there.set (there.registries sharedRegistry).markers (.inr rfl)

/-! ## Histories -/

/-- The catalogs of programs that never register a type explicitly. They define and mark types,
register other ones, forget what registries and caches know, make new ones, and ask for anything
that changes no answer. What fails stays done as far as it came. -/
inductive History (model : ModelId) : Catalog → Prop
  | start : History model {}
  | define {c c' : Catalog} {base : ModelId} {name module : String} {table : Option Value}
      {declarations : List Declaration} {log log' : Log} {result : Except Failure ModelId}
      (before : History model c)
      (ran : (Catalog.define base name module table declarations).exec c log = (result, c', log')) :
      History model c'
  | mark {c c' : Catalog} {id : ModelId} {markers : List Marker} {log log' : Log}
      {result : Except Failure Unit} (before : History model c)
      (ran : (Catalog.mark id markers).exec c log = (result, c', log')) : History model c'
  | register {c c' : Catalog} {place : RegistryId} {other : ModelId} {given : Registration}
      {log log' : Log} {result : Except Failure Unit} (before : History model c)
      (apart : other ≠ model)
      (ran : (onRegistry place (Registry.register c.forest other given)).exec c log =
        (result, c', log')) : History model c'
  | clear {c c' : Catalog} {place : RegistryId} {log log' : Log} {result : Except Failure Unit}
      (before : History model c)
      (ran : (onRegistry place Registry.clear).exec c log = (result, c', log')) : History model c'
  | newRegistry {c c' : Catalog} {log log' : Log} {result : Except Failure RegistryId}
      (before : History model c)
      (ran : Catalog.newRegistry.exec c log = (result, c', log')) : History model c'
  | newCache {c c' : Catalog} {provider : Provider} {log log' : Log}
      {result : Except Failure CacheId} (before : History model c)
      (ran : (Catalog.newCache provider).exec c log = (result, c', log')) : History model c'
  | forget {c c' : Catalog} {k : CacheId} {log log' : Log} {result : Except Failure Unit}
      (before : History model c) (ran : (Cache.clear k).exec c log = (result, c', log')) :
      History model c'
  | ask {c c' : Catalog} (before : History model c) (agrees : c.Agrees c') : History model c'

theorem introspects_start (model : ModelId) : Introspects {} model := by
  have empty (r : RegistryId) : registryAt {} r = {} := by
    cases r with
    | mk i => cases i <;> rfl
  have registries (r : RegistryId) : (registryAt {} r).Introspects Forest.roots model := by
    rw [empty]
    exact ⟨rfl, rfl⟩
  refine ⟨Forest.wellBuilt_roots, registries, ?_⟩
  intro k r p provider policy
  have none : (cacheAt {} k).policies = [] := by
    cases k with
    | mk i => cases i <;> rfl
  rw [policyOf, none, provider] at policy
  exact comesOf_of_classified registries policy

/-- Nothing but its fields and its markers is ever known of a type that nobody registers. -/
theorem introspects_of_history (h : History model c) : c.Introspects model := by
  induction h with
  | start => exact introspects_start model
  | define before ran ih => exact ih.define ran
  | mark before ran ih => exact ih.mark ran
  | register before apart ran ih => exact ih.register apart ran
  | clear before ran ih => exact ih.clear ran
  | newRegistry before ran ih => exact ih.newRegistry ran
  | newCache before ran ih => exact ih.newCache ran
  | forget before ran ih => exact ih.forget ran
  | ask before agrees ih => exact ih.agrees agrees

end Catalog

end RecordSeal
