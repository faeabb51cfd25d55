set_option autoImplicit false

/-! # Log

Entries have a level and the name of their logger. Those of too low a rank are dropped when they
are written, so a later change of the threshold leaves the entries as they are. -/

namespace RecordSeal

/-- The levels of log entries. -/
inductive Level where
  | debug
  | info
  | warning
  | error
  | critical
  deriving DecidableEq

/-- The rank of a level. -/
def Level.rank : Level → Nat
  | .debug => 10
  | .info => 20
  | .warning => 30
  | .error => 40
  | .critical => 50

/-- The name of a level. -/
def Level.name : Level → String
  | .debug => "DEBUG"
  | .info => "INFO"
  | .warning => "WARNING"
  | .error => "ERROR"
  | .critical => "CRITICAL"

/-- An entry with the name of its logger. -/
structure LogEntry where
  level : Level
  source : String
  message : String
  deriving DecidableEq

/-- The log: entries of a rank below the threshold are dropped. -/
structure Log where
  threshold : Nat := 0
  handlers : Nat := 0
  entries : List LogEntry := []

/-- The name of the level that the threshold of a log is the rank of, if it is one. -/
def Log.levelName (log : Log) : String :=
  let levels : List Level := [.debug, .info, .warning, .error, .critical]
  match levels.find? fun level => level.rank = log.threshold with
  | some level => level.name
  | none => "NOTSET"

/-- Adds an entry unless its rank is below the threshold. -/
def Log.add (log : Log) (e : LogEntry) : Log :=
  if log.threshold ≤ e.level.rank then { log with entries := log.entries ++ [e] } else log

end RecordSeal
