import RecordSeal.CommandLine
import RecordSeal.Proofs.Catalog.Overrides
import RecordSeal.Proofs.Mapper

set_option autoImplicit false

/-! # What the policy service reports

A report of the service is a function of the catalog (`Service.reportOf`), and the command line
shows the same one. Both take an override for the table that signatures are bound to if it counts as
given, hooks take it if it is there. As overrides always name tables, all of them mean the same one
(`Service.contextTable_agrees`). -/

namespace RecordSeal

namespace Service

variable (σ : Session)

/-! ## Types by name -/

/-- The type that the service finds under a name. -/
def modelOf (c : Catalog) (name : Value) : Except Failure ModelId :=
  match (c.registryAt Catalog.sharedRegistry).modelType name with
  | .ok id => .ok id
  | .error (.noEntry _) => .error (.unknownModel name.shown)
  | .error why => .error why

theorem exec_modelType (name : Value) (log : Log) :
    (modelType name).exec σ log = (modelOf σ.catalog name, σ, log) := by
  rw [modelType, modelOf, Act.exec_bind, Act.exec_get]
  dsimp only
  cases (σ.catalog.registryAt Catalog.sharedRegistry).modelType name with
  | ok id => rfl
  | error why => cases why <;> rfl

/-! ## Reports -/

/-- The report of the service on a type. -/
def reportOf (c : Catalog) (model : String) (id : ModelId) : Except Failure PolicyReport :=
  (c.policyOf Catalog.sharedCache id).map fun policy =>
    { model, table := (tablesOf c id).1, contextTable := (tablesOf c id).2, policy }

/-- A report that is an answer of the service. -/
def checked (report : PolicyReport) : Except Failure PolicyReport :=
  (checkIssues report.issues).map fun _ => report

/-- What the service answers about the type of a name. -/
def answerOf (c : Catalog) (name : Value) : Except Failure PolicyReport :=
  (modelOf c name).bind fun id => (reportOf c name.shown id).bind checked

theorem tablesOf_agrees {c c' : Catalog} (agrees : c.Agrees c') (id : ModelId) :
    tablesOf c' id = tablesOf c id := by
  have markers := agrees.markers (.registry Catalog.sharedRegistry) id
  rw [Provider.markers, Provider.markers] at markers
  rw [tablesOf, tablesOf, agrees.tableName, markers]

theorem exec_reportOn (model : String) (id : ModelId) (log : Log) :
    ∃ σ' log', σ.Asked σ' ∧
      (reportOn model id).exec σ log = (reportOf σ.catalog model id, σ', log') := by
  obtain ⟨σ', log', asked, ran⟩ := Session.exec_asking
    (Catalog.exec_policy Catalog.sharedCache id σ.catalog log)
  refine ⟨σ', log', asked, ?_⟩
  rw [reportOn, reportOf, Act.exec_bind, ran, ← tablesOf_agrees asked.catalog]
  cases σ.catalog.policyOf Catalog.sharedCache id <;> rfl

theorem exec_policyOf (name : Value) (log : Log) :
    ∃ σ' log', σ.Asked σ' ∧
      (policyOf name).exec σ log = (answerOf σ.catalog name, σ', log') := by
  rw [policyOf, answerOf, Act.exec_bind, exec_modelType]
  cases modelOf σ.catalog name with
  | error why => exact ⟨σ, log, .refl σ, rfl⟩
  | ok id =>
    obtain ⟨σ', log', asked, ran⟩ := exec_reportOn σ name.shown id log
    refine ⟨σ', log', asked, ?_⟩
    dsimp only [Except.bind]
    rw [Act.exec_bind, ran]
    cases reportOf σ.catalog name.shown id with
    | error why => rfl
    | ok report =>
      dsimp only
      rw [Act.exec_bind, Act.exec_ofExcept, checked]
      cases checkIssues report.issues <;> rfl

end Service

namespace CommandLine

/-- What the command line shows of a report. -/
def shown (r : Service.PolicyReport) : Output :=
  { text := String.ofList (Json.printIndented 0 (.object (reportValue r)) ++ ['\n']) }

theorem exec_showPolicy {σ : Session} {path : String} {id : ModelId} {log : Log}
    (found : findType σ.catalog.forest log path = .ok id) :
    ∃ σ' log', σ.Asked σ' ∧ (showPolicy path).exec σ log =
      ((Service.reportOf σ.catalog (σ.catalog.forest.typeAt id).name id).map shown, σ', log') := by
  obtain ⟨σ', log', asked, ran⟩ :=
    Service.exec_reportOn σ (σ.catalog.forest.typeAt id).name id log
  refine ⟨σ', log', asked, ?_⟩
  have logged : (Act.currentLog : Act Session Log).exec σ log = (.ok log, σ, log) := rfl
  rw [showPolicy, Act.exec_bind, Act.exec_get]
  dsimp only
  rw [Act.exec_bind, logged]
  dsimp only
  rw [Act.exec_bind, Act.exec_ofExcept, found]
  dsimp only
  rw [Act.exec_bind, ran]
  cases Service.reportOf σ.catalog (σ.catalog.forest.typeAt id).name id <;> rfl

end CommandLine

/-! ## One context table -/

/-- Whether hooks bind the record of a transform to a table: whenever they ask their encryptor
something, they tell it a context with that table. -/
structure Hooks.Binds (h : Hooks) (σ : Session) (t : Transform) (table : Value) : Prop where
  encode : ∀ p log, h.policyOf σ.catalog t.model = .ok p → p.doNotTouch = false →
    ∃ context σ' log', context.binding.table = table ∧ σ.Asked σ' ∧
      (h.encode t).exec σ log =
        (Act.mapFailure (asMapping .encrypt (σ.catalog.forest.typeAt t.model).name)
          (Session.onWorkshop
            (h.encryptor.encrypt σ.around.now t.record p.fields context))).exec σ' log'
  decode : ∀ p reserved log, h.policyOf σ.catalog t.model = .ok p → p.doNotTouch = false →
    namesOf [(h.encryptor.reservedNames σ.workshop).1,
      (h.encryptor.reservedNames σ.workshop).2] = .ok reserved →
    ∃ context σ' log', context.binding.table = table ∧ σ.Asked σ' ∧
      (h.decode t).exec σ log =
        (Act.mapFailure (asMapping .decrypt (σ.catalog.forest.typeAt t.model).name)
          (Session.onWorkshop (h.encryptor.decrypt t.record
            (p.reconcile t.record.keys reserved) context))).exec σ' log'

theorem Hooks.binds_contextOf (h : Hooks) (σ : Session) (t : Transform) :
    h.Binds σ t (h.contextOf σ.catalog t).binding.table := by
  refine ⟨?_, ?_⟩
  · intro p log answer active
    obtain ⟨σ', log', asked, ran⟩ := h.exec_encode_of_active t log answer active
    exact ⟨_, σ', log', rfl, asked, ran⟩
  · intro p reserved log answer active names
    obtain ⟨σ', log', asked, ran⟩ := h.exec_decode_of_active t log answer active names
    exact ⟨_, σ', log', rfl, asked, ran⟩

namespace Service

variable {σ : Session} {m : Mapper} {model : ModelId}

/-- The table that signatures of a type are bound to, as mappers of the shared registry and their
hooks have it. -/
theorem contextOf_table (reachable : σ.catalog.Reachable)
    (shared : m.registry = Catalog.sharedRegistry)
    (asks : m.hooks.provider = .registry Catalog.sharedRegistry) (t : Transform)
    (table : t.table = m.tableOf σ.catalog t.model) :
    (m.hooks.contextOf σ.catalog t).binding.table = (tablesOf σ.catalog t.model).2 := by
  rw [Hooks.contextOf, Transform.context, tablesOf, asks, Provider.markers, table, Mapper.tableOf,
    shared]
  dsimp only
  cases found : ((σ.catalog.registryAt Catalog.sharedRegistry).markersOf σ.catalog.forest
      t.model).tableOverride with
  | none => rfl
  | some override =>
    have given := Catalog.isGiven_of_reachable reachable found
    rw [Option.getD_some, Option.getD_some, Value.orElse, if_pos given]

/-- Service, command line and hooks agree on the table that signatures of a type are bound to, in
every catalog that a program may come to. No override is the empty text; the service and the command
line give the same report, and what a mapper makes for its hooks is bound to the second of the
tables that the report names. -/
theorem contextTable_agrees (reachable : σ.catalog.Reachable)
    (shared : m.registry = Catalog.sharedRegistry)
    (asks : m.hooks.provider = .registry Catalog.sharedRegistry) {hashKey rangeKey : Value}
    (keys : m.keyNamesOf σ.catalog model = .ok (hashKey, rangeKey))
    (keyed : hashKey.isNull = false) :
    (∀ override, ((σ.catalog.registryAt Catalog.sharedRegistry).markersOf σ.catalog.forest
      model).tableOverride = some override → override ≠ .text "") ∧
    (∀ name log, modelOf σ.catalog name = .ok model → ∃ σ' log', σ.Asked σ' ∧
      (policyOf name).exec σ log =
        ((reportOf σ.catalog name.shown model).bind checked, σ', log')) ∧
    (∀ path log, CommandLine.findType σ.catalog.forest log path = .ok model →
      ∃ σ' log', σ.Asked σ' ∧ (CommandLine.showPolicy path).exec σ log =
        ((reportOf σ.catalog (σ.catalog.forest.typeAt model).name model).map CommandLine.shown,
          σ', log')) ∧
    (∀ shown report, reportOf σ.catalog shown model = .ok report →
      report.table = (tablesOf σ.catalog model).1 ∧
      report.contextTable = (tablesOf σ.catalog model).2) ∧
    ∀ record isPartial log, ∃ t σ' log', σ.catalog.Agrees σ'.catalog ∧
      (m.transform model record isPartial).exec σ log = (.ok t, σ', log') ∧
      t.table = (tablesOf σ.catalog model).1 ∧
      ∀ τ : Session, σ.catalog.Agrees τ.catalog →
        m.hooks.Binds τ t (tablesOf σ.catalog model).2 := by
  refine ⟨?_, ?_, ?_, ?_, ?_⟩
  · rintro override found rfl
    cases Catalog.isGiven_of_reachable reachable found
  · intro name log found
    obtain ⟨σ', log', asked, ran⟩ := exec_policyOf σ name log
    refine ⟨σ', log', asked, ?_⟩
    rw [ran, answerOf, found]
    rfl
  · intro path log found
    exact CommandLine.exec_showPolicy found
  · intro shown report reported
    obtain ⟨policy, -, rfl⟩ := exists_of_map_eq_ok reported
    exact ⟨rfl, rfl⟩
  · intro record isPartial log
    obtain ⟨σ', log', follows, ran⟩ :=
      Mapper.exec_transform (.refl σ.catalog) model record isPartial log
    have made : m.transformOf σ.catalog model record isPartial = .ok
        { model, table := m.tableOf σ.catalog model, hashKey, rangeKey, record, isPartial } := by
      rw [Mapper.transformOf, keys]
      simp [keyed]
    refine ⟨_, σ', log', follows.catalog, ran.trans (by rw [made]), ?_, ?_⟩
    · rw [tablesOf, Mapper.tableOf, shared]
    · intro τ agrees
      let t : Transform :=
        { model, table := m.tableOf σ.catalog model, hashKey, rangeKey, record, isPartial }
      have bound := contextOf_table reachable shared asks t rfl
      rw [← m.hooks.contextOf_agrees t agrees] at bound
      exact bound ▸ m.hooks.binds_contextOf τ t

/-- A sealed type with a key that is bound to another table. A marker that names none is refused
before. -/
def bookRequests : List Catalog.Request := [
  .define Forest.sealedRoot "Book" "shop" none [
    { name := "id", type := .text, markers := { hashKey := .bool true } }],
  .mark ⟨6⟩ [.tableOverride (.text "")],
  .mark ⟨6⟩ [.tableOverride (.text "books")]]

/-- A program with that type. -/
def bookSession : Session where
  around := { now := ⟨2024, 1, 1, 0, 0, 0, 0⟩, entropy := { stream := fun _ => 0 } }
  catalog := Catalog.after bookRequests {} {}

/-- The service reports the other table, and hooks bind records to it. -/
theorem contextTable_agrees_book :
    ∃ report t σ log σ' log', (policyOf (.text "Book")).exec bookSession {} = (.ok report, σ, log) ∧
      report.contextTable = .text "books" ∧
      (Mapper.transform ⟨⟨.sealer .sample, ⟨0⟩, .registry ⟨0⟩⟩, ⟨0⟩, ⟨0⟩⟩ ⟨6⟩
        [("id", .text "a")] false).exec bookSession {} = (.ok t, σ', log') ∧
      t.table = .text "Book" ∧
      Hooks.Binds ⟨.sealer .sample, ⟨0⟩, .registry ⟨0⟩⟩ bookSession t (.text "books") := by
  obtain ⟨-, answered, -, reported, bound⟩ := contextTable_agrees
    (show bookSession.catalog.Reachable from ⟨bookRequests, {}, rfl⟩)
    (show (⟨⟨.sealer .sample, ⟨0⟩, .registry ⟨0⟩⟩, ⟨0⟩, ⟨0⟩⟩ : Mapper).registry = _ from rfl) rfl
    (show Mapper.keyNamesOf _ _ ⟨6⟩ = .ok (.text "id", .null) from rfl) rfl
  obtain ⟨report, made, fine⟩ : ∃ report,
      reportOf bookSession.catalog "Book" ⟨6⟩ = .ok report ∧ checked report = .ok report :=
    ⟨_, rfl, rfl⟩
  obtain ⟨σ, log, -, ran⟩ := answered (.text "Book") {} rfl
  obtain ⟨t, σ', log', -, transformed, placed, binds⟩ := bound [("id", .text "a")] false {}
  refine ⟨report, t, σ, log, σ', log', ?_, (reported _ _ made).2, transformed, placed,
    binds bookSession (.refl _)⟩
  rw [ran]
  show ((reportOf bookSession.catalog "Book" ⟨6⟩).bind checked, σ, log) = _
  rw [made]
  exact congrArg (·, σ, log) fine

end Service

end RecordSeal
