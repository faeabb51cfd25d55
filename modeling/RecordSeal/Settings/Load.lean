import RecordSeal.Settings
import RecordSeal.Settings.Memory
import RecordSeal.Text.Upper

set_option autoImplicit false

/-! # Setting up

Settings are set up from the built-in values, then a file, then environment variables, each later
source winning. A secrets file is merged afterwards. A failure keeps what was done before it. -/

namespace RecordSeal.Settings

/-- Sets an entry of a section. -/
def assign (name key : String) (v : Value) : Act Settings Unit := do
  let s ← get
  match s.values.get? name with
  | some (.object fields) =>
    set { s with values := s.values.insert name (.object (Assoc.insert fields key v)) }
  | some w => Act.fail (.mismatched (.noAssignment w.kindName))
  | none => Act.fail (.noEntry (Text.quote name))

/-- Merges what a file holds; nothing if it holds nothing. -/
def mergeDocument (v : Value) : Act Settings Unit := do
  if v.isGiven then
    match v with
    | .object fields => modify fun s => { s with values := Memory.mergeApart s.values fields }
    | _ => Act.fail (.lacking (.ofValue v.kindName "items"))

/-- The path that a value is; only texts are paths. -/
def pathOf : Value → Except Failure String
  | .text path => .ok path
  | v => .error (.mismatched (.notPath v.kindName))

/-- Merges a settings file; a file that is missing or cannot be read ends the program. -/
def loadFile (around : Surroundings) (path : String) : Act Settings Unit := do
  match around.lookup path with
  | .missing =>
    Act.note .critical source s!"Configuration file not found: {path}"
    Act.fail (.exit 1)
  | .tooLong => Act.fail (.pathTooLong (Path.tidy path))
  | .found content =>
    match Surroundings.read path content with
    | .error text =>
      Act.note .critical source s!"Error loading configuration file: {text}"
      Act.fail (.exit 1)
    | .ok v => mergeDocument v

/-- The database settings that environment variables override. -/
def databaseVariables : List (String × String) := [
  ("FIELDSEAL_DB_URL", "url"),
  ("FIELDSEAL_DB_NAME", "database"),
  ("FIELDSEAL_DB_USERNAME", "username"),
  ("FIELDSEAL_DB_PASSWORD", "password")]

/-- Overrides the mode; only the two known modes are taken. -/
def applyMode (around : Surroundings) : Act Settings Unit := do
  match around.findVariable "FIELDSEAL_MODE" with
  | some mode =>
    if mode = "DEV" ∨ mode = "PROD" then
      modify fun s => { s with values := s.values.insert "mode" (.text mode) }
  | none => pure ()

/-- Overrides the number of iterations by a text of digits. -/
def applyIterations (around : Surroundings) : Act Settings Unit := do
  match around.findVariable "FIELDSEAL_KEY_ITERATIONS" with
  | some text =>
    if Text.allDigits text then
      match Literal.read text.toList with
      | .ok n => assign "encryption" "key_iterations" (.int n)
      | .error fault => Act.fail (.refused (.notWhole text fault))
  | none => pure ()

/-- Overrides the log level, in upper case. -/
def applyLevel (around : Surroundings) : Act Settings Unit := do
  match around.findVariable "FIELDSEAL_LOG_LEVEL" with
  | some text => assign "logging" "level" (.text (Text.upper text))
  | none => pure ()

/-- Overrides database settings. -/
def applyDatabase (around : Surroundings) : List (String × String) → Act Settings Unit
  | [] => pure ()
  | (name, key) :: rest => do
    match around.findVariable name with
    | some text => assign "database" key (.text text)
    | none => pure ()
    applyDatabase around rest

/-- Overrides settings from the environment. -/
def applyVariables (around : Surroundings) : Act Settings Unit := do
  applyMode around
  applyIterations around
  applyLevel around
  applyDatabase around databaseVariables

/-- Sets up the settings from the built-in values, a file if its path is given, and the
environment. -/
def setUp (around : Surroundings) (path : Value) : Act Settings Unit := do
  modify fun s => { s with values := builtIn }
  if path.isGiven then loadFile around (← Act.ofExcept (pathOf path))
  applyVariables around
  -- A failure stops before this, so that settings are set up again when they are next asked for.
  modify fun s => { s with ready := true }

/-- Sets up the settings without a file unless they have been set up. -/
def ensureReady (around : Surroundings) : Act Settings Unit := do
  let s ← get
  if !s.ready then setUp around .null

/-- Merges the secrets file at a path, which messages show in another form. A missing file is only
noted; one that cannot be read ends the program. -/
def loadSecretsAs (around : Surroundings) (path shown : String) : Act Settings Unit := do
  ensureReady around
  match around.lookup path with
  | .missing => Act.note .warning source s!"Secrets file not found: {shown}"
  | .tooLong => Act.fail (.pathTooLong (Path.tidy shown))
  | .found content =>
    match Surroundings.read shown content with
    | .error text =>
      Act.note .critical source s!"Error loading secrets file: {text}"
      Act.fail (.exit 1)
    | .ok v =>
      mergeDocument v
      Act.note .info source s!"Loaded configuration from secrets file: {shown}"

/-- Merges the secrets file at a path. -/
def loadSecrets (around : Surroundings) (path : Value) : Act Settings Unit := do
  ensureReady around
  let path ← Act.ofExcept (pathOf path)
  loadSecretsAs around path path

/-! ## Queries -/

/-- The value under a key, or a default. -/
def query (around : Surroundings) (key : String) (default : Value) : Act Settings Value := do
  ensureReady around
  let s ← get
  pure ((lookup s.values key).getD default)

/-- The value under a key given as a value, or a default. Only texts are keys: of other values,
lists and objects are searched for the dot that would make them a path, the rest cannot be. -/
def queryValue (around : Surroundings) (key default : Value) : Act Settings Value := do
  match key with
  | .text k => query around k default
  | v =>
    ensureReady around
    Act.fail (keyFailure v)
where
  /-- Why a value that is no text is not looked up. -/
  keyFailure : Value → Failure
    | .list items =>
      if items.any fun v => v.text? = some "." then .lacking (.ofValue "list" "split")
      else .mismatched (.notName "list")
    | .object fields =>
      if Assoc.contains fields (Name.text ".") then .lacking (.ofValue "dict" "split")
      else .mismatched (.notName "dict")
    | v => .mismatched (.notContainer v.kindName)

/-- A value that counts as given, else the one under a key, or a default. -/
def orQuery (around : Surroundings) (given : Value) (key : String) (default : Value) :
    Act Settings Value :=
  if given.isGiven then pure given else query around key default

/-- Whether the program runs in development mode. -/
def isDevMode (around : Surroundings) : Act Settings Bool := do
  match ← query around "mode" .null with
  | .text mode => pure (mode = "DEV")
  | _ => pure false

/-- The name of the log level. -/
def logLevel (around : Surroundings) : Act Settings String := do
  pure (← query around "logging.level" (.text "INFO")).shown

/-- The address of the database. -/
def databaseUrl (around : Surroundings) : Act Settings Value :=
  query around "database.url" (.text "http://localhost:8529")

/-- The credentials for the database. -/
structure Credentials where
  username : Value
  password : Value
  database : Value

/-- The credentials for the database. -/
def credentials (around : Surroundings) : Act Settings Credentials := do
  let username ← query around "database.username" (.text "root")
  let password ← query around "database.password" (.text "")
  let database ← query around "database.database" (.text "fieldseal")
  pure { username, password, database }

/-! ## Log set-up -/

/-- The ranks that a threshold may be named by. -/
def levelRanks : List (String × Nat) := [
  ("CRITICAL", 50), ("FATAL", 50), ("ERROR", 40), ("WARNING", 30), ("WARN", 30), ("INFO", 20),
  ("DEBUG", 10), ("NOTSET", 0)]

/-- Sets the threshold of the log by name, from the settings if no name is given, and gives the
log a handler if it has none. -/
def configureLog (around : Surroundings) (level : Value) : Act Settings Unit := do
  let given ← match level with
    | .text s => if s = "" then logLevel around else pure s
    | v => if v.isGiven then Act.fail (.lacking (.ofValue v.kindName "upper")) else logLevel around
  let name := Text.upper given
  match Assoc.get? levelRanks name with
  | none => Act.fail (.refused (.unknownLevel name))
  | some rank =>
    Act.adjustLog fun log => { log with threshold := rank, handlers := max 1 log.handlers }

end RecordSeal.Settings
