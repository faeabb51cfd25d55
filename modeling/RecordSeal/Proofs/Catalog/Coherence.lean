import RecordSeal.Proofs.Catalog.Overrides

set_option autoImplicit false

/-! # What caches keep while catalogs change

A provider answers about a type in terms of its registry and of the markers along the lineage of the
type. What a request leaves alone of these, it leaves the answers about the type alone
(`Provider.Same`), whatever it makes registries work out and keep for other types. A cache comes to
keep a policy only where it kept none, and only the one that classification gives at that moment
(`Catalog.Steps`). -/

namespace RecordSeal

/-! ## Answers that stay -/

/-- Whether a provider answers about a type in one catalog as in another. -/
structure Provider.Same (p : Provider) (id : ModelId) (c c' : Catalog) : Prop where
  markers : p.markers c' id = p.markers c id
  mappings : p.mappingsOf c' id = p.mappingsOf c id

namespace Provider.Same

variable {p : Provider} {id : ModelId} {c c' c'' : Catalog}

theorem refl (p : Provider) (id : ModelId) (c : Catalog) : p.Same id c c := ⟨rfl, rfl⟩

theorem trans (h : p.Same id c c') (h' : p.Same id c' c'') : p.Same id c c'' :=
  ⟨h'.markers.trans h.markers, h'.mappings.trans h.mappings⟩

theorem classified (h : p.Same id c c') : p.classified c' id = p.classified c id := by
  rw [Provider.classified, Provider.classified, h.markers, h.mappings]

theorem of_agrees (h : c.Agrees c') (p : Provider) (id : ModelId) : p.Same id c c' :=
  ⟨h.markers p id, Catalog.mappingsOf_congr h.registries h.forest p id⟩

/-- A registry that knows the same of a type, the type being what it was but for its own markers,
and the markers along its lineage being as they were, answers about it as before. -/
theorem of_registry {r : RegistryId}
    (type : ∃ markers, c'.forest.typeAt id = { c.forest.typeAt id with markers })
    (own : ∀ a ∈ (c.forest.typeAt id).lineage,
      (c'.forest.typeAt a).markers = (c.forest.typeAt a).markers)
    (mappings : (c'.registryAt r).mappings.get? id = (c.registryAt r).mappings.get? id)
    (markers : (c'.registryAt r).markers.get? id = (c.registryAt r).markers.get? id) :
    (Provider.registry r).Same id c c' := by
  obtain ⟨own', type⟩ := type
  refine ⟨?_, ?_⟩
  · have inherited : c'.forest.markersOf id = c.forest.markersOf id :=
      Forest.markersOf_congr (by rw [type]) own
    rw [Provider.markers, Registry.markersOf, inherited, markers]
    rfl
  · rw [Provider.mappingsOf, Registry.mappingsOf, mappings, type]
    rfl

theorem of_eq (forest : c'.forest = c.forest) (registries : ∀ r, c'.registryAt r = c.registryAt r)
    (p : Provider) (id : ModelId) : p.Same id c c' := by
  cases p with
  | fixed answers => exact ⟨rfl, rfl⟩
  | registry r =>
    exact of_registry ⟨_, by rw [forest]⟩ (fun a _ => by rw [forest]) (by rw [registries])
      (by rw [registries])

/-- What takes the place of a registry and knows the same of a type answers about it as before. -/
theorem of_set {place : RegistryId} {r : Registry} (p : Provider)
    (mappings : p = .registry place → r.mappings.get? id = (c.registryAt place).mappings.get? id)
    (markers : p = .registry place → r.markers.get? id = (c.registryAt place).markers.get? id) :
    p.Same id c { c with registries := c.registries.set place.index r } := by
  cases p with
  | fixed answers => exact ⟨rfl, rfl⟩
  | registry j =>
    rcases getD_set c.registries r {} place.index j.index with old | ⟨same, new⟩
    · refine of_registry ⟨_, rfl⟩ (fun _ _ => rfl) ?_ ?_ <;>
        rw [Catalog.registryAt, old, ← Catalog.registryAt]
    · obtain rfl : j = place := by
        cases j
        cases place
        exact congrArg RegistryId.mk same
      refine of_registry ⟨_, rfl⟩ (fun _ _ => rfl) ?_ ?_ <;> rw [Catalog.registryAt, new]
      · exact mappings rfl
      · exact markers rfl

end Provider.Same

namespace Catalog

/-! ## What requests do -/

/-- The policy that a cache keeps for a type, if it keeps one. -/
def kept (c : Catalog) (k : CacheId) (id : ModelId) : Option ClassPolicy :=
  (c.cacheAt k).policies.get? id

/-- Whether a request changes what a provider knows of a type: the type is registered there, the
registry is cleared, the type or an ancestor is marked, or the type comes into being. Fixed answers
do not change. -/
def Request.Touches (request : Request) (p : Provider) (id : ModelId) (c : Catalog) : Prop :=
  match p, request with
  | .registry r, .register place other _ => place = r ∧ other = id
  | .registry r, .clear place => place = r
  | .registry _, .mark other _ => other ∈ (c.forest.typeAt id).lineage
  | .registry _, .define .. => id.index = c.forest.types.length
  | _, _ => False

/-- What one request may do to a catalog: it leaves the answers about types that it does not touch,
and a cache keeps no policy afterwards but one that it kept before, or, if it kept none, the one
that classification gave before. A request by which a policy is entered leaves all answers. -/
structure Steps (c c' : Catalog) (touched : Provider → ModelId → Prop) : Prop where
  built : c'.forest.WellBuilt
  same : ∀ p id, ¬ touched p id → p.Same id c c'
  entered : ∀ k id policy, c'.kept k id = some policy →
    (c'.cacheAt k).provider = (c.cacheAt k).provider ∧
    (c.kept k id = some policy ∨
      c.kept k id = none ∧ (c.cacheAt k).provider.classified c id = .ok policy ∧
        ∀ (p : Provider) (other : ModelId), p.Same other c c')

variable {c c' : Catalog} {touched : Provider → ModelId → Prop}

/-- Asking enters what classification gives, and touches nothing. -/
theorem steps_of_agrees (built : c.forest.WellBuilt) (h : c.Agrees c') : Steps c c' touched := by
  refine ⟨h.forest ▸ built, fun p id _ => .of_agrees h p id, ?_⟩
  intro k id policy found
  refine ⟨h.providers k, ?_⟩
  have answer : c.policyOf k id = .ok policy := by
    rw [← h.policies, policyOf, ← kept, found]
  cases before : c.kept k id with
  | some old =>
    rw [policyOf, ← kept, before] at answer
    exact .inl (congrArg some (Except.ok.inj answer))
  | none =>
    rw [policyOf, ← kept, before] at answer
    exact .inr ⟨rfl, answer, .of_agrees h⟩

theorem steps_of_caches (built : c'.forest.WellBuilt) (caches : c'.caches = c.caches)
    (same : ∀ p id, ¬ touched p id → p.Same id c c') : Steps c c' touched := by
  have cacheAt (k : CacheId) : c'.cacheAt k = c.cacheAt k := by
    rw [Catalog.cacheAt, caches, Catalog.cacheAt]
  refine ⟨built, same, ?_⟩
  intro k id policy found
  rw [kept, cacheAt, ← kept] at found
  exact ⟨by rw [cacheAt], .inl found⟩

/-- What changes caches only, and keeps nothing new in them, enters nothing. -/
theorem steps_of_registries (built : c.forest.WellBuilt) (forest : c'.forest = c.forest)
    (registries : c'.registries = c.registries)
    (caches : ∀ k id policy, c'.kept k id = some policy → c'.cacheAt k = c.cacheAt k) :
    Steps c c' touched := by
  refine ⟨forest ▸ built, fun p id _ => ?_, ?_⟩
  · exact .of_eq forest (fun r => by rw [registryAt, registries, registryAt]) p id
  · intro k id policy found
    have cacheAt := caches k id policy found
    rw [kept, cacheAt, ← kept] at found
    exact ⟨by rw [cacheAt], .inl found⟩

/-- Marking a type leaves caches as they are, and the answers about all types that do not descend
from it. -/
theorem exec_mark_same (built : c.forest.WellBuilt) (other : ModelId) (markers : List Marker)
    {log log' : Log} {result : Except Failure Unit}
    (ran : (Catalog.mark other markers).exec c log = (result, c', log')) :
    c'.forest.WellBuilt ∧ c'.caches = c.caches ∧
      ∀ (p : Provider) id, other ∉ (c.forest.typeAt id).lineage → p.Same id c c' := by
  induction markers generalizing c log with
  | nil =>
    cases ran
    exact ⟨built, rfl, fun p id _ => .refl p id _⟩
  | cons marker rest ih =>
    rw [exec_mark_cons] at ran
    cases marked : c.forest.mark other marker with
    | error why =>
      rw [marked] at ran
      cases ran
      exact ⟨built, rfl, fun p id _ => .refl p id _⟩
    | ok forest =>
      rw [marked] at ran
      have grown := (Forest.grows_of_mark built marked).built
      obtain ⟨built', caches, same⟩ := ih (c := { c with forest }) grown ran
      refine ⟨built', caches, fun p id apart => ?_⟩
      have lineage := Forest.lineage_mark marked id
      have first : p.Same id c { c with forest } := by
        cases p with
        | fixed answers => exact ⟨rfl, rfl⟩
        | registry r =>
          refine .of_registry (Forest.typeAt_mark marked id).1 ?_ rfl rfl
          intro a ha
          show (forest.typeAt a).markers = _
          rw [(Forest.typeAt_mark marked a).2]
          rintro rfl
          exact apart ha
      refine first.trans (same p id ?_)
      show other ∉ (forest.typeAt id).lineage
      rw [lineage]
      exact apart

/-- Defining a type leaves caches as they are, and the answers about all types that were there. -/
theorem exec_define_same (built : c.forest.WellBuilt) {base : ModelId} {name module : String}
    {table : Option Value} {declarations : List Declaration} {log log' : Log}
    {result : Except Failure ModelId}
    (ran : (Catalog.define base name module table declarations).exec c log = (result, c', log')) :
    c'.forest.WellBuilt ∧ c'.caches = c.caches ∧
      ∀ (p : Provider) (id : ModelId), id.index ≠ c.forest.types.length → p.Same id c c' := by
  obtain rfl | ⟨fields, id, forest, described, added, what⟩ := exec_define_cases ran
  · exact ⟨built, rfl, fun p id _ => .refl p id c'⟩
  have types := Forest.typeAt_addType added
  have there (p : Provider) (other : ModelId) (old : other.index ≠ c.forest.types.length) :
      p.Same other c { c with forest } := by
    cases p with
    | fixed answers => exact ⟨rfl, rfl⟩
    | registry r =>
      refine .of_registry ⟨_, (types other).trans (if_neg old)⟩ ?_ rfl rfl
      intro a ha
      exact congrArg _ ((types a).trans (if_neg (Nat.ne_of_lt (built.inside other a ha))))
  have grown := Forest.wellBuilt_addType built (declared_seen described) added
  obtain rfl | ⟨models, rfl⟩ := what
  · exact ⟨grown, rfl, there⟩
  · -- A name by which a type is known changes no answer.
    refine ⟨grown, rfl, fun p other old => (there p other old).trans ?_⟩
    exact .of_set (c := { c with forest }) p (fun _ => rfl) fun _ => rfl

/-- What changes nothing but what one registry knows enters nothing. -/
theorem steps_of_registry (built : c.forest.WellBuilt) (place : RegistryId) {r : Registry}
    (mappings : ∀ id, ¬ touched (.registry place) id →
      r.mappings.get? id = (c.registryAt place).mappings.get? id)
    (markers : ∀ id, ¬ touched (.registry place) id →
      r.markers.get? id = (c.registryAt place).markers.get? id) :
    Steps c { c with registries := c.registries.set place.index r } touched := by
  refine steps_of_caches built rfl fun p id untouched => .of_set p ?_ ?_
  · rintro rfl
    exact mappings id untouched
  · rintro rfl
    exact markers id untouched

theorem exec_onRegistryOf {α : Type} (place : RegistryId) (act : Forest → Act Registry α)
    (c : Catalog) (log : Log) :
    (onRegistryOf place act).exec c log = (onRegistry place (act c.forest)).exec c log := by
  rw [onRegistryOf, Act.exec_bind, Act.exec_get]

theorem steps_register (built : c.forest.WellBuilt) (place : RegistryId) (other : ModelId)
    (given : Registration) (log : Log) :
    Steps c ((onRegistry place (Registry.register c.forest other given)).exec c log).2.1
      fun p id => Request.Touches (.register place other given) p id c := by
  obtain ⟨models, _, registered⟩ := exec_register c.forest other given (c.registryAt place) log
  rw [onRegistry, Act.exec_on, registered]
  have apart {id : ModelId}
      (untouched : ¬ Request.Touches (.register place other given) (.registry place) id c) :
      ¬ (other == id) = true := by
    intro same
    exact untouched ⟨rfl, eq_of_beq same⟩
  refine steps_of_registry built place ?_ ?_
  · intro id untouched
    show ((c.registryAt place).mappings.insert other given.mappings).get? id = _
    rw [Assoc.get?_insert, if_neg (apart untouched)]
  · intro id untouched
    show ((c.registryAt place).markers.insert other given.markers).get? id = _
    rw [Assoc.get?_insert, if_neg (apart untouched)]

theorem steps_registerModel (built : c.forest.WellBuilt) (place : RegistryId) (other : ModelId)
    (log : Log) :
    Steps c ((onRegistry place (Registry.registerModel c.forest other)).exec c log).2.1
      touched := by
  obtain ⟨models, _, named⟩ := exec_registerModel c.forest other (c.registryAt place) log
  rw [onRegistry, Act.exec_on, named]
  exact steps_of_registry built place (fun _ _ => rfl) fun _ _ => rfl

theorem steps_newCache (built : c.forest.WellBuilt) (p : Provider) (log : Log) :
    Steps c ((Catalog.newCache p).exec c log).2.1 touched := by
  refine steps_of_registries built rfl rfl ?_
  intro k id policy found
  -- A cache that is new keeps nothing.
  rcases getD_append c.caches { provider := p } { provider := .registry sharedRegistry }
      k.index with
    old | new
  · exact old
  · have empty : (cacheAt ((Catalog.newCache p).exec c log).2.1 k).policies = [] :=
      congrArg Cache.policies new
    rw [kept, empty] at found
    cases found

theorem steps_forget (built : c.forest.WellBuilt) (k : CacheId) (log : Log) :
    Steps c ((Cache.clear k).exec c log).2.1 touched := by
  refine steps_of_registries built rfl rfl ?_
  intro j id policy found
  rcases getD_modify c.caches { provider := .registry sharedRegistry } ({ · with policies := [] })
    k.index j.index with old | ⟨-, emptied⟩
  · exact old
  · have empty : (cacheAt ((Cache.clear k).exec c log).2.1 j).policies = [] :=
      congrArg Cache.policies emptied
    rw [kept, empty] at found
    cases found

theorem Request.steps (request : Request) (built : c.forest.WellBuilt) (log : Log) :
    Steps c (request.act.exec c log).2.1 fun p id => request.Touches p id c := by
  cases request with
  | define base name module table declarations =>
    obtain ⟨built', caches, same⟩ := exec_define_same built
      (show (Catalog.define base name module table declarations).exec c log = _ from rfl)
    rw [act, Act.exec_silent]
    refine steps_of_caches built' caches ?_
    intro p id untouched
    cases p with
    | fixed answers => exact ⟨rfl, rfl⟩
    | registry r => exact same _ id untouched
  | mark other markers =>
    obtain ⟨built', caches, same⟩ := exec_mark_same built other markers
      (show (Catalog.mark other markers).exec c log = _ from rfl)
    refine steps_of_caches built' caches ?_
    intro p id untouched
    cases p with
    | fixed answers => exact ⟨rfl, rfl⟩
    | registry r => exact same _ id untouched
  | register place other given =>
    rw [act, exec_onRegistryOf]
    exact steps_register built place other given log
  | registerModel place other =>
    rw [act, exec_onRegistryOf]
    exact steps_registerModel built place other log
  | clear place =>
    refine steps_of_registry built place ?_ ?_ <;> exact fun id untouched => absurd rfl untouched
  | newRegistry =>
    refine steps_of_caches built rfl fun p id _ => ?_
    have same : p.Same id c { c with registries := c.registries ++ [({} : Registry)] } :=
      .of_eq (by rfl) (registryAt_append c) p id
    exact same
  | newCache p => exact steps_newCache built p log
  | fieldMappings p id =>
    obtain ⟨c', agrees, ran⟩ := exec_fieldMappings p id c log
    rw [act, Act.exec_silent, ran]
    exact steps_of_agrees built agrees
  | ownMappings id =>
    obtain ⟨_, c', agrees, ran⟩ := exec_ownMappings id c log
    rw [act, Act.exec_silent, ran]
    exact steps_of_agrees built agrees
  | policy k id =>
    obtain ⟨c', _, agrees, ran⟩ := exec_policy k id c log
    rw [act, Act.exec_silent, ran]
    exact steps_of_agrees built agrees
  | forget k => exact steps_forget built k log

end Catalog

end RecordSeal
