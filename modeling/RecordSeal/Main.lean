import RecordSeal.CommandLine

set_option autoImplicit false

/-! # The program

Hands arguments, environment and files to the command line, prints what it writes, and sends the
log to the error stream. Settings files are read as JSON. -/

namespace RecordSeal.Program

/-- The environment variables that settings and sealers look at. -/
def variableNames : List String := [
  "FIELDSEAL_MODE", "FIELDSEAL_KEY_ITERATIONS", "FIELDSEAL_LOG_LEVEL", "FIELDSEAL_DB_URL",
  "FIELDSEAL_DB_NAME", "FIELDSEAL_DB_USERNAME", "FIELDSEAL_DB_PASSWORD",
  "FIELDSEAL_ENCRYPTION_KEY"]

/-- The variables that are set. -/
def readVariables : IO (Assoc String String) := do
  let mut found : Assoc String String := []
  for name in variableNames do
    if let some v ← IO.getEnv name then found := found.insert name v
  pure found

/-- What is found at a path. -/
def readFile (path : String) : IO (Option FileContent) := do
  try
    let text ← IO.FS.readFile path
    match Json.readUnmarked (.loose text.length) (Text.points text.toList) with
    | .ok v => pure (some (.document v))
    | .error _ =>
      let isBlank := text.toList.all Char.isWhitespace
      pure (some (if isBlank then .document .null else .invalid))
  catch _ => pure none

/-- The surroundings of the program: only the files it may ask for are read, and since it seals
nothing, the time and the random bytes are fixed. -/
def readSurroundings (paths : List String) : IO Surroundings := do
  let mut around : Surroundings :=
    { environment := ← readVariables, now := ⟨1970, 1, 1, 0, 0, 0, 0⟩, entropy := .cyclic [0] }
  for path in paths do
    if let some content ← readFile path then around := around.write path content
  pure around

/-- The line of a log entry. -/
def logLine (e : LogEntry) : String := s!"{e.level.name} [{e.source}] {e.message}"

/-- Runs the program and gives its exit code. -/
def run (args : List String) : IO UInt32 := do
  let config := match CommandLine.Options.read args with
    | .ok o => o.config.toList
    | .error _ => []
  let around ← readSurroundings (CommandLine.secretsPlace :: config)
  let (result, _, log) := (CommandLine.run args false).exec { around } {}
  for e in log.entries do IO.eprintln (logLine e)
  match result with
  | .ok out =>
    IO.print out.text
    pure 0
  | .error (.exit code) => pure (UInt32.ofNat code)
  | .error why =>
    IO.eprintln why.message
    pure 1

end RecordSeal.Program

/-- Runs the program. -/
def main (args : List String) : IO UInt32 := RecordSeal.Program.run args
