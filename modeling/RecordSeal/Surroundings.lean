import RecordSeal.Clock
import RecordSeal.Failure
import RecordSeal.Path
import RecordSeal.Seal.Limits
import RecordSeal.Value

set_option autoImplicit false

/-! # Surroundings

What a program finds outside itself: environment variables, files, the time, random bytes and the
limits of the host. Files are given by what they hold and are kept by their places. What a file
holds is a value, no part of which is shared with another one; merging itself allows for parts that
are shared (`Memory.merge`). -/

namespace RecordSeal

/-- What is found at a path. -/
inductive FileContent where
  /-- A file that holds a value; an empty file holds null. -/
  | document (v : Value)
  /-- A file that cannot be read as a value. -/
  | invalid
  | directory

/-- What looking for a path gives. -/
inductive Lookup where
  | found (content : FileContent)
  | missing
  /-- The path, or a name along it, is too long to be looked for. -/
  | tooLong

/-- What a program finds outside itself. -/
structure Surroundings where
  environment : Assoc String String := []
  files : Assoc (List String) FileContent := []
  now : Timestamp
  entropy : Entropy
  /-- The text of the directory that holds the program, which is the working directory. -/
  home : String := "."
  /-- What limits the sealers that the program makes. -/
  limits : Sealer.Limits := .standard

namespace Surroundings

/-! ## Files -/

/-- What is at a place, if anything. -/
def contentAt (s : Surroundings) (place : List String) : Option FileContent :=
  if Path.isAbove place then some .directory else s.files.get? place

/-- Whether a directory is at a place. -/
def isDirectoryAt (s : Surroundings) (place : List String) : Bool :=
  match s.contentAt place with
  | some .directory => true
  | _ => false

/-- Follows names from a place; all but the last one must lead to directories. -/
def follow (s : Surroundings) (place : List String) : List String → Lookup
  | [] =>
    match s.contentAt place with
    | some content => .found content
    | none => .missing
  | name :: rest =>
    if !s.isDirectoryAt place then .missing
    else if Path.maxNameSize < name.utf8ByteSize then .tooLong
    else follow s (Path.next place name) rest

/-- Looks for a path. -/
def lookup (s : Surroundings) (path : String) : Lookup :=
  if '\x00' ∈ path.toList then .missing
  else if Path.isShort path then s.follow (Path.start path) (Path.names path)
  else .tooLong

/-- Whether something is found at a path. -/
def isThere (s : Surroundings) (path : String) : Bool :=
  match s.lookup path with
  | .found _ => true
  | _ => false

/-- Puts content at the end of names that lead on from a place, with directories on the way. -/
def put (content : FileContent) (s : Surroundings) (place : List String) :
    List String → Surroundings
  | [] => { s with files := s.files.insert place content }
  | name :: rest =>
    let s :=
      if s.isDirectoryAt place then s else { s with files := s.files.insert place .directory }
    put content s (Path.next place name) rest

/-- Writes a file. -/
def write (s : Surroundings) (path : String) (content : FileContent) : Surroundings :=
  put content s (Path.start path) (Path.names path)

/-! ## Environment -/

/-- The value of an environment variable that is set to something. -/
def findVariable (s : Surroundings) (name : String) : Option String :=
  (s.environment.get? name).filter (· ≠ "")

/-- Sets an environment variable. -/
def setVariable (s : Surroundings) (name value : String) : Surroundings :=
  { s with environment := s.environment.insert name value }

/-- Removes an environment variable. -/
def unsetVariable (s : Surroundings) (name : String) : Surroundings :=
  { s with environment := s.environment.erase name }

/-- The text that names an environment variable or is its value. -/
def variableText : Value → Except Failure String
  | .text s => .ok s
  | v => .error (.mismatched (.notVariable v.kindName))

/-- Sets an environment variable to a value if both can stand in an environment. -/
def setVariableTo (s : Surroundings) (name value : Value) : Except Failure Surroundings := do
  let name ← variableText name
  let value ← variableText value
  if name.contains '\x00' || value.contains '\x00' then throw (.refused .nullByte)
  if name.contains '=' then throw (.refused .variableName)
  if name = "" then throw .namelessVariable
  pure (s.setVariable name value)

/-- Removes the environment variable that a value names. -/
def unsetVariableOf (s : Surroundings) (name : Value) : Except Failure Surroundings := do
  pure (s.unsetVariable (← variableText name))

/-! ## Reading -/

/-- The text of a failure to read a file that holds no value. -/
def unreadable : String := "<yaml error>"

mutual

/-- A value as a reader makes it, with each name once in an object: of a repeated name the last
value counts. -/
def readValue : Value → Value
  | .list items => .list (readItems items)
  | .object fields => .object (Assoc.ofList (readFields fields))
  | v => v

/-- Items as a reader makes them. -/
def readItems : List Value → List Value
  | [] => []
  | v :: rest => readValue v :: readItems rest

/-- Fields with the values that a reader makes. -/
def readFields : List (Name × Value) → List (Name × Value)
  | [] => []
  | (k, v) :: rest => (k, readValue v) :: readFields rest

end

/-- Reads the value of a file that is there, or the text of the failure. -/
def read (path : String) : FileContent → Except String Value
  | .document v => .ok (readValue v)
  | .invalid => .error unreadable
  | .directory => .error s!"[Errno 21] Is a directory: {Text.quote (Path.tidy path)}"

end Surroundings

end RecordSeal
