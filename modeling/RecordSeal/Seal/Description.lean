import RecordSeal.Failure
import RecordSeal.Json.Printer
import RecordSeal.Json.Sorted

set_option autoImplicit false

/-! # Material descriptions

A sealed record carries a description of how its keys were derived. It is stored as JSON text in
plain sight; what it says is trusted only after the signature has been verified. -/

namespace RecordSeal

/-! ## JSON texts inside records -/

/-- The JSON text of a value with its fields in order; the first obstacle to writing it counts. -/
def Value.json (lim : Json.Limits) (sep : Json.Separators) (v : Value) :
    Except Failure (List Char) :=
  match Json.obstacle? lim.digits lim.depth v with
  | some why => .error (.unwritable why)
  | none => .ok (Json.print sep v)

/-- Reads the JSON text that a value holds as text or as bytes. -/
def Value.readJson (lim : Json.Limits) : Value → Except Failure Value
  | .text s => (Json.readUnmarked lim (Text.points s.toList)).mapError .malformedJson
  | .brokenText ps => (Json.readUnmarked lim ps).mapError .malformedJson
  | .bytes bs => do
    let ps ← (Text.ofBytes bs).mapError Failure.malformedText
    (Json.read lim ps).mapError .malformedJson
  | v => .error (.mismatched (.notJsonText v.kindName))

/-! ## Descriptions -/

/-- The ways to encrypt attributes. -/
inductive Algorithm where
  | aesGcm
  deriving DecidableEq

namespace Algorithm

/-- The name of an algorithm. -/
def name : Algorithm → String
  | .aesGcm => "AES-GCM"

/-- The algorithm that a value names. -/
def ofValue (v : Value) : Except Failure Algorithm :=
  match v with
  | .text s => if s = aesGcm.name then .ok .aesGcm else refuse
  | _ => refuse
where
  /-- No algorithm has this name. -/
  refuse : Except Failure Algorithm := .error (.refused (.unknownAlgorithm v.quote))

end Algorithm

/-- What a sealed record says about its keys. The salt is base64 text in a well-formed one. -/
structure MaterialDescription where
  algorithm : Algorithm
  salt : Value
  createdAt : Value
  version : Value := .text "1.0"

namespace MaterialDescription

/-- The description as an object. -/
def toValue (d : MaterialDescription) : Record :=
  [("algorithm", .text d.algorithm.name), ("salt", d.salt), ("created_at", d.createdAt),
    ("version", d.version)]

/-- The stored text of a description. -/
def text (d : MaterialDescription) : List Char :=
  Json.print Json.spaced (Value.object d.toValue).sorted

/-- The entry of an object under a name. -/
def entry (v : Value) (name : String) : Except Failure Value :=
  match v with
  | .object fields =>
    match Assoc.get? fields name with
    | some w => .ok w
    | none => .error (.noEntry (Text.quote name))
  | _ => .error (.mismatched (.noFields v.kindName))

/-- Reads a description; without a version it is the first one. -/
def ofValue (v : Value) : Except Failure MaterialDescription := do
  let algorithm ← Algorithm.ofValue (← entry v "algorithm")
  let salt ← entry v "salt"
  let createdAt ← entry v "created_at"
  let version := ((v.object?.bind fun fields => fields.get? "version").getD (.text "1.0"))
  pure { algorithm, salt, createdAt, version }

end MaterialDescription

end RecordSeal
