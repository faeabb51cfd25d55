import RecordSeal.Surroundings
import RecordSeal.Act

set_option autoImplicit false

/-! # Settings

Settings are nested objects. They start from built-in values, and a value is looked up by a path of
names joined by dots (`lookup`). -/

namespace RecordSeal

/-- The settings of a program and whether they have been set up. -/
structure Settings where
  values : Record := []
  ready : Bool := false

namespace Settings

/-- The name under which settings log. -/
def source : String := "fieldseal.config"

/-- The built-in settings. -/
def builtIn : Record := [
  ("mode", .text "DEV"),
  ("encryption", .object [
    ("algorithm", .text "AES-GCM"),
    ("key_derivation", .text "PBKDF2"),
    ("key_iterations", .int 100000),
    ("signature_field", .text "*field_seal_sig*"),
    ("material_description_field", .text "*field_seal_desc*")]),
  ("logging", .object [("level", .text "INFO")]),
  ("database", .object [
    ("url", .text "http://localhost:8529"),
    ("database", .text "fieldseal"),
    ("username", .text "root"),
    ("password", .text "")]),
  ("service", .object [("host", .text "0.0.0.0"), ("port", .int 8000)])]

/-! ## Lookup -/

/-- The value at a path of names. -/
def atPath : Value → List String → Option Value
  | v, [] => some v
  | .object fields, name :: rest =>
    match Assoc.get? fields name with
    | some v => atPath v rest
    | none => none
  | _, _ :: _ => none

/-- The value under a key, which is a path of names joined by dots. -/
def lookup (values : Record) (key : String) : Option Value :=
  atPath (.object values) (Text.pieces '.' key)

end Settings

end RecordSeal
