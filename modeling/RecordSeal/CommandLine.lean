import RecordSeal.CommandLine.Modules
import RecordSeal.CommandLine.Options
import RecordSeal.Service

set_option autoImplicit false

/-! # Command line

The command line sets up the settings, then the log, then the secrets. It shows the policy of one
type, or makes sure that the modules of types are there and serves. -/

namespace RecordSeal.CommandLine

/-- The name under which the command line logs. -/
def source : String := "fieldseal.main"

/-- Where secrets are looked for, from the directory of the program. -/
def secretsPlace : String := ".secrets/fieldseal.yaml"

/-! ## Types by name -/

/-- The type that a path of module and name, joined by a colon, leads to. -/
def findType (f : Forest) (log : Log) (path : String) : Except Failure ModelId :=
  let cs := path.toList
  let module := String.ofList (cs.takeWhile (· ≠ ':'))
  let name := String.ofList ((cs.dropWhile (· ≠ ':')).drop 1)
  if name = "" then .error (.refused (.incompletePath path))
  else do
    requireModule f module
    typeInModule f log module name

/-! ## Running -/

/-- What a run writes and what it serves. -/
structure Output where
  text : String := ""
  served : List Service.Serving := []

/-- The report on a type as an object. -/
def reportValue (r : Service.PolicyReport) : Record :=
  let tables : Record := [("model", .text r.model), ("table_name", r.table),
    ("context_table_name", r.contextTable)]
  r.policy.toValue ++ tables

/-- Shows the policy of the type at a path. -/
def showPolicy (path : String) : Act Session Output := do
  let forest := (← get).catalog.forest
  let id ← Act.ofExcept (findType forest (← Act.currentLog) path)
  let report ← Service.reportOn (forest.typeAt id).name id
  pure { text := String.ofList (Json.printIndented 0 (.object (reportValue report)) ++ ['\n']) }

/-- An optional text that is not empty, as a value; the empty one counts as null. -/
def givenText (s : Option String) : Value := .ofText? (s.filter (· ≠ ""))

/-- How to serve: as asked for, else as the settings say. A port of zero is not asked for. -/
def servingFor (o : Options) : Act Session Service.Serving := do
  let host ← Session.onSettings fun around =>
    Settings.orQuery around (givenText o.host) "service.host" (.text "0.0.0.0")
  let port ← match o.port.filter (· ≠ 0) with
    | some n => pure n
    | none =>
      let v ← Session.onSettings fun around => Settings.query around "service.port" (.int 8000)
      Act.ofExcept v.toInt
  pure { host, port := .int port, reload := o.reload }

/-- Sets up settings, log and secrets. -/
def setUp (o : Options) : Act Session Unit := do
  match o.mode with
  | some mode =>
    modify fun s => { s with around := s.around.setVariable "FIELDSEAL_MODE" mode }
  | none => pure ()
  Session.onSettings fun around => Settings.setUp around (.ofText? o.config)
  Session.onSettings fun around => Settings.configureLog around .null
  let around := (← get).around
  if around.isThere secretsPlace then
    Session.onSettings fun around =>
      Settings.loadSecretsAs around secretsPlace s!"{around.home}/{secretsPlace}"

/-- Serves until it is stopped. An interruption ends the program. -/
def serve (o : Options) (interrupted : Bool) : Act Session Output := do
  let forest := (← get).catalog.forest
  Act.ofExcept (o.modules.forM (requireModule forest))
  let serving ← servingFor o
  let mode ← Session.onSettings fun around => Settings.query around "mode" .null
  Act.note .info source s!"fieldseal - {mode.shown} mode"
  let served ← Service.start serving
  if interrupted then
    Act.note .info source "Service stopped"
    Act.fail (.exit 0)
  pure { served := [served] }

/-- Runs the program with arguments. `interrupted` says whether serving is interrupted. -/
def run (args : List String) (interrupted : Bool) : Act Session Output := do
  let o ← Act.ofExcept ((Options.read args).mapError Failure.exit)
  setUp o
  match o.showPolicy.filter (· ≠ "") with
  | some path => showPolicy path
  | none => serve o interrupted

end RecordSeal.CommandLine
