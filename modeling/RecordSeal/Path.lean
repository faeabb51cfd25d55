import RecordSeal.Text.Pieces

set_option autoImplicit false

/-! # Paths

A path is names with slashes between them, behind a root if it is absolute. Empty names and single
dots lead nowhere; two dots lead up. A place is the list of names that lead to it from the working
directory, in which two dots stand only at the beginning, or from the root. -/

namespace RecordSeal.Path

/-- The root of a path: nothing for a relative one, and one slash or exactly two for others. -/
def root (path : String) : String :=
  match path.toList with
  | ['/', '/'] => "//"
  | '/' :: '/' :: c :: _ => if c = '/' then "/" else "//"
  | '/' :: _ => "/"
  | _ => ""

/-- The names along a path that lead somewhere. -/
def names (path : String) : List String :=
  (Text.pieces '/' path).filter fun n => n ≠ "" ∧ n ≠ "."

/-- A path without what leads nowhere; the path that leads nowhere at all is a dot. -/
def tidy (path : String) : String :=
  let shown := root path ++ Text.joined '/' (names path)
  if shown = "" then "." else shown

/-! ## Places -/

/-- The place that a path starts from. -/
def start (path : String) : List String := if root path = "" then [] else ["/"]

/-- Whether a place is the root, the working directory or a directory above it. -/
def isAbove (place : List String) : Bool := place = ["/"] || place.all (· = "..")

/-- The place above a place; above the root is the root itself. -/
def above (place : List String) : List String :=
  if place = ["/"] then place
  else if isAbove place then place ++ [".."]
  else place.dropLast

/-- The place that a name leads to from a place. -/
def next (place : List String) (name : String) : List String :=
  if name = ".." then above place else place ++ [name]

/-! ## Limits -/

/-- The most bytes that a name along a path may have. -/
def maxNameSize : Nat := 255

/-- The most bytes that a path may have. -/
def maxSize : Nat := 4095

/-- Whether a path as a whole can be looked up. -/
def isShort (path : String) : Bool := (tidy path).utf8ByteSize ≤ maxSize

end RecordSeal.Path
