import RecordSeal.Hooks
import RecordSeal.Model.Instance

set_option autoImplicit false

/-! # Policy service

The service reports, for the types the shared registry knows by name, how they are classified and
which flags the attributes of a stored record would get. It only reads. -/

namespace RecordSeal.Service

/-- The name under which the service logs. -/
def source : String := "fieldseal.service.api"

/-- The application that is served. -/
def application : String := "fieldseal.service.api:app"

/-! ## Reserved names -/

/-- Takes the reserved names from the encryptor in use, or from the settings if there is none. -/
def useEncryptor (e : Option Encryptor) : Act Session Unit :=
  modify fun s => { s with reserved := e.map fun e => e.reservedNames s.workshop }

/-- The reserved names: those of the encryptor in use, else those of the settings. -/
def reservedNames : Act Session (Value × Value) := do
  match (← get).reserved with
  | some names => pure names
  | none =>
    let signature ← Session.onSettings fun around =>
      Settings.query around "encryption.signature_field" .null
    let description ← Session.onSettings fun around =>
      Settings.query around "encryption.material_description_field" .null
    pure (signature, description)

/-! ## Reports -/

/-- What the service says of itself. -/
structure Health where
  mode : Value

/-- The mode that the service runs in. -/
def health : Act Session Health := do
  pure { mode := ← Session.onSettings fun around => Settings.query around "mode" .null }

/-- Puts a name before the first one that is greater. -/
def insertName (name : String) : List String → List String
  | [] => [name]
  | n :: rest => if n < name then n :: insertName name rest else name :: n :: rest

/-- The names of the known types, by code point. -/
def names : Act Session (List String) := do
  pure (((← get).catalog.registryAt Catalog.sharedRegistry).models.keys.foldr insertName [])

/-- The type of a name. -/
def modelType (name : Value) : Act Session ModelId := do
  match ((← get).catalog.registryAt Catalog.sharedRegistry).modelType name with
  | .ok id => pure id
  | .error (.noEntry _) => Act.fail (.unknownModel name.shown)
  | .error why => Act.fail why

/-- The table of a type and the table name its signatures are bound to. -/
def tablesOf (c : Catalog) (id : ModelId) : Value × Value :=
  let r := c.registryAt Catalog.sharedRegistry
  let table := r.tableName c.forest id
  (table, ((r.markersOf c.forest id).tableOverride.getD .null).orElse table)

/-- How a type is classified, with its tables. -/
structure PolicyReport where
  model : String
  table : Value
  contextTable : Value
  policy : ClassPolicy

/-- The report on a type. -/
def reportOn (model : String) (id : ModelId) : Act Session PolicyReport := do
  let policy ← Session.onCatalog (Cache.policy Catalog.sharedCache id)
  let (table, contextTable) := tablesOf (← get).catalog id
  pure { model, table, contextTable, policy }

/-- The step on the way to a value that leads through a name: whole numbers of eight bytes and
truth values are indices. -/
def stepTo : Name → Step
  | .bool b => .index (if b then 1 else 0)
  | .int n => if Acceptance.fits n then .index n else .key (Name.int n).shown
  | name => .key name.shown

/-- The issue of an answer that must have a text under a title. -/
def textIssue (title : String) : Value → List Issue
  | .text _ => []
  | .brokenText _ => []
  | _ => [⟨[.key title], "string_type"⟩]

/-- The issues of policies in an answer under a title: their names must be texts. -/
def nameIssues (title : String) (policies : FieldPolicies) : List Issue :=
  policies.filterMap fun (name, _) =>
    match name with
    | .text _ => none
    | .brokenText _ => none
    | name => some ⟨[.key title, stepTo name, .key "[key]"], "string_type"⟩

/-- Fails if there is an issue. -/
def checkIssues : List Issue → Except Failure Unit
  | [] => .ok ()
  | issues => .error (.invalid issues)

/-- What keeps a report from being an answer of the service. -/
def PolicyReport.issues (r : PolicyReport) : List Issue :=
  textIssue "table_name" r.table ++ textIssue "context_table_name" r.contextTable ++
    nameIssues "fields" r.policy.fields

/-- The report on the type of a name. -/
def policyOf (name : Value) : Act Session PolicyReport := do
  let report ← reportOn name.shown (← modelType name)
  Act.ofExcept (checkIssues report.issues)
  pure report

/-- The names that a request gives as a list of values; all that are no texts are refused at
once. -/
def attributeNames : Value → Except Failure (List Name)
  | .list values => do
    let texts ← (Acceptance.texts [.key "attributes"] 0 values).mapError Failure.invalid
    pure (texts.filterMap Value.name?)
  | _ => .error (.invalid [⟨[.key "attributes"], "list_type"⟩])

/-- The flags that the attributes of a stored record of a type get. -/
def resolve (name attributes : Value) : Act Session FieldPolicies := do
  let names ← Act.ofExcept (attributeNames attributes)
  let id ← modelType name
  let policy ← Session.onCatalog (Cache.policy Catalog.sharedCache id)
  let (signature, description) ← reservedNames
  let reserved ← if policy.doNotTouch then pure []
    else Act.ofExcept (namesOf [signature, description])
  let policies := policy.reconcile names reserved
  Act.ofExcept (checkIssues (nameIssues "policies" policies))
  pure policies

/-! ## Serving -/

/-- How the service is served. -/
structure Serving where
  host : Value := .text "0.0.0.0"
  port : Value := .int 8000
  reload : Bool := false

/-- A port as the log shows it: a number without its fraction. -/
def portText (port : Value) : String :=
  match port with
  | .bool b => if b then "1" else "0"
  | .float x => (x.truncate?.map fun n => String.ofList (Decimal.ofInt n)).getD port.shown
  | v => v.shown

/-- Starts serving. -/
def start (serving : Serving) : Act Session Serving := do
  Act.note .info source
    s!"Starting policy service on {serving.host.shown}:{portText serving.port}"
  pure serving

end RecordSeal.Service
