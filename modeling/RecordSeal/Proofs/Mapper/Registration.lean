import RecordSeal.Proofs.Catalog.Registration
import RecordSeal.Proofs.Mapper

set_option autoImplicit false

/-! # What registrations replace

A type that is registered again has the mappings, the markers, the keys and the policy of its last
registration, and mappers bind its records to the same parameters as if there had been no other
one (`Registry.Replaced`). The table is the exception: if the last registration names none, the one
that was named before stays, and with it the place where records of the type are kept. -/

namespace RecordSeal

namespace Mapper

variable {m m' : Mapper} {c c' : Catalog} {id : ModelId}

theorem keyNamesOf_alike (forest : c.forest = c'.forest)
    (alike : (c.registryAt m.registry).Alike (c'.registryAt m'.registry) id) :
    m.keyNamesOf c id = m'.keyNamesOf c' id := by
  rw [keyNamesOf, keyNamesOf, forest, alike.mappings]

/-- Mappers with registries that answer alike about a type build parameters that differ in the table
at most. -/
theorem transformOf_alike (forest : c.forest = c'.forest)
    (alike : (c.registryAt m.registry).Alike (c'.registryAt m'.registry) id) (record : Record)
    (isPartial : Bool) :
    m.transformOf c id record isPartial =
      (m'.transformOf c' id record isPartial).map ({ · with table := m.tableOf c id }) := by
  rw [transformOf, transformOf, keyNamesOf_alike forest alike, forest]
  cases m'.keyNamesOf c' id with
  | error why => rfl
  | ok keys =>
    obtain ⟨hashKey, rangeKey⟩ := keys
    dsimp only
    split <;> rfl

end Mapper

namespace Registry

/-- What a registration of a type makes of a registry, in which a table may have been named for the
type before, next to a registry that was told nothing but this registration. -/
structure Replaced (before r fresh : Registry) (named : Option Value) (id : ModelId)
    (given : Registration) : Prop where
  mappings : ∀ f log log', ((fieldMappings f id).exec r log).1 = .ok given.mappings ∧
    ((fieldMappings f id).exec fresh log').1 = .ok given.mappings
  keyNames : ∀ f log log',
    ((keyNames f id).exec r log).1 = ((keyNames f id).exec fresh log').1
  markers : ∀ f, r.markersOf f id = fresh.markersOf f id
  classified : ∀ (c c' : Catalog) (place place' : RegistryId) (log log' : Log),
    c.registryAt place = r → c'.registryAt place' = fresh → c.forest = c'.forest →
    (((Provider.registry place).classify id).exec c log).1 =
      (((Provider.registry place').classify id).exec c' log').1
  transform : ∀ (m m' : Mapper) (σ σ' : Session) (record : Record) (isPartial : Bool)
    (log log' : Log), σ.catalog.registryAt m.registry = r →
    σ'.catalog.registryAt m'.registry = fresh → σ.catalog.forest = σ'.catalog.forest →
    ((m.transform id record isPartial).exec σ log).1 =
      ((m'.transform id record isPartial).exec σ' log').1.map
        ({ · with table := r.tableName σ.catalog.forest id })
  tableName : ∀ f, r.tableName f id =
    if given.table.isGiven then given.table else named.getD (fresh.tableName f id)
  sameTable : ∀ f, r.tableName f id = fresh.tableName f id ↔
    given.table.isGiven = true ∨ ∀ table ∈ named, table = fresh.tableName f id
  others : ∀ other, other ≠ id → ∀ f log log',
    ((fieldMappings f other).exec r log).1 = ((fieldMappings f other).exec before log').1 ∧
    r.markersOf f other = before.markersOf f other ∧
    r.tableName f other = before.tableName f other

theorem mappingsOf_of_register (calls : List (Forest × Call)) (f : Forest) (id : ModelId)
    (given : Registration) (log : Log) (g : Forest) :
    (after (calls ++ [(f, .register id given)]) log).mappingsOf g id = .ok given.mappings := by
  rw [mappingsOf, (after_register calls f id given log).1, Assoc.get?_insert, if_pos BEq.rfl]

/-- Whatever a registry was told and asked before: after a registration of a type it answers about
the type as a registry in which nothing else was registered, and about other types as it did before.
Only a table that was named for the type since everything was last forgotten stays if the
registration names none. After everything is forgotten nothing is left. -/
theorem replaced_of_register (calls : List (Forest × Call)) (f f' : Forest) (id : ModelId)
    (given : Registration) (log log' : Log) :
    Replaced (after calls log) (after (calls ++ [(f, .register id given)]) log)
      (after [(f', .register id given)] log') (lastTable id calls) id given ∧
    after (calls ++ [(f, .clear)]) log = {} := by
  have alike := alike_of_register calls [] f f' id given log log'
  have known := tableName_of_register calls f id given log
  have alone := tableName_of_register [] f' id given log'
  rw [List.nil_append] at alike alone
  have table (g : Forest) :
      (after (calls ++ [(f, .register id given)]) log).tableName g id =
        if given.table.isGiven then given.table
        else (lastTable id calls).getD
          ((after [(f', .register id given)] log').tableName g id) := by
    rw [known, alone]
    split <;> rfl
  refine ⟨?_, by rw [after, run_append]; rfl⟩
  constructor
  case mappings =>
    intro g log₁ log₂
    rw [fieldMappings_eq, fieldMappings_eq]
    exact ⟨mappingsOf_of_register calls f id given log g,
      mappingsOf_of_register [] f' id given log' g⟩
  case keyNames =>
    intro g log₁ log₂
    rw [keyNames_eq, keyNames_eq, alike.mappings]
  case markers => exact alike.markers
  case classified =>
    intro c c' place place' log₁ log₂ here there forest
    rw [classify_eq, classify_eq]
    exact Provider.classified_alike forest (by rw [here, there]; exact alike)
  case transform =>
    intro m m' σ σ' record isPartial log₁ log₂ here there forest
    obtain ⟨_, _, -, ran⟩ := Mapper.exec_transform (.refl σ.catalog) id record isPartial log₁
    obtain ⟨_, _, -, ran'⟩ := Mapper.exec_transform (.refl σ'.catalog) id record isPartial log₂
    rw [ran, ran', Mapper.transformOf_alike forest (by rw [here, there]; exact alike),
      Mapper.tableOf, here]
  case tableName => exact table
  case sameTable =>
    intro g
    rw [table]
    by_cases given' : given.table.isGiven = true
    · rw [if_pos given', alone, if_pos given']
      simp [given']
    · rw [if_neg given']
      cases lastTable id calls <;> simp [given']
  case others =>
    intro other apart g log₁ log₂
    obtain ⟨same, tables⟩ := alike_of_register_other calls f apart given log
    rw [fieldMappings_eq, fieldMappings_eq]
    exact ⟨same.mappings g, same.markers g, tables g⟩

/-- A plain type is registered with a table, and asked for. -/
def sampleHistory : List (Forest × Call) :=
  [(.roots, .register Forest.plainRoot
    { mappings := [{ name := .text "number", attributeName := .text "number" }]
      table := .text "invoices" }),
   (.roots, .fieldMappings Forest.plainRoot)]

/-- A registration of the type that makes it exempt, without a table. -/
def sampleRegistration : Registration :=
  { mappings := [{ name := .text "n", attributeName := .text "n" }], doNotTouch := true }

/-- A type that is registered again is classified by its last registration only, but keeps the table
of the earlier one, and not its name as it would have if there had been none. -/
theorem replaced_of_register_sample :
    ∃ r fresh : Registry,
      r = after (sampleHistory ++ [(.roots, .register Forest.plainRoot sampleRegistration)]) {} ∧
      fresh = after [(.roots, .register Forest.plainRoot sampleRegistration)] {} ∧
      (((Provider.registry ⟨0⟩).classify Forest.plainRoot).exec { registries := [r] } {}).1 =
        (((Provider.registry ⟨0⟩).classify Forest.plainRoot).exec
          { registries := [fresh] } {}).1 ∧
      r.tableName .roots Forest.plainRoot = .text "invoices" ∧
      r.tableName .roots Forest.plainRoot ≠ fresh.tableName .roots Forest.plainRoot := by
  obtain ⟨replaced, -⟩ := replaced_of_register sampleHistory .roots .roots Forest.plainRoot
    sampleRegistration {} {}
  have own : (after [(.roots, .register Forest.plainRoot sampleRegistration)] {}).tableName .roots
      Forest.plainRoot = .text "object" :=
    tableName_of_register [] .roots Forest.plainRoot sampleRegistration {} .roots
  refine ⟨_, _, rfl, rfl, replaced.classified _ _ ⟨0⟩ ⟨0⟩ {} {} rfl rfl rfl,
    replaced.tableName .roots, ?_⟩
  rw [Ne, replaced.sameTable]
  rintro (given | same)
  · cases given
  · have : Value.text "invoices" = .text "object" := (same _ rfl).trans own
    simp at this

end Registry

end RecordSeal
