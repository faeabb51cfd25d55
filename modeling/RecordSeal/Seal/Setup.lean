import RecordSeal.Seal.Sealer
import RecordSeal.Settings.Load

set_option autoImplicit false

/-! # Making a sealer

What is not given comes from the environment and the settings. Without a master key a sealer is
made in development mode only, with a built-in key and a warning. -/

namespace RecordSeal

/-- The integer that a value gives: numbers lose their fraction, texts are read. -/
def Value.toInt : Value → Except Failure Int
  | .bool b => .ok (if b then 1 else 0)
  | .int n => .ok n
  | .float x =>
    match x.truncate? with
    | some n => .ok n
    | none =>
      if x = .undefined then .error (.refused .undefinedNumber)
      else .error (.exceeded .infinite)
  | .text s => (Literal.read s.toList).mapError fun fault => .refused (.notWhole s fault)
  | .brokenText ps => .error (.refused (.notWhole (Text.replaced ps) .malformed))
  | v => .error (.mismatched (.notNumber v.kindName))

namespace Sealer

/-- The name under which sealers log. -/
def source : String := "fieldseal.encryption.record_encryptor"

/-- The key that stands in for a master key in development mode. -/
def developmentKey : String := "dev-only-encryption-key-do-not-use-in-production"

/-- What is asked of a new sealer; values that do not count as given are looked up. -/
structure Options where
  masterKey : Value := .null
  algorithm : Value := .null
  iterations : Value := .null
  signatureName : Value := .null
  descriptionName : Value := .null

/-- The master key from the environment, the settings, or development mode; null if there is
none. -/
def findMasterKey (around : Surroundings) : Act Settings Value := do
  match around.findVariable "FIELDSEAL_ENCRYPTION_KEY" with
  | some key => pure (.text key)
  | none =>
    let key ← Settings.query around "encryption.key" .null
    if key.isGiven then pure key
    else if ← Settings.isDevMode around then
      Act.note .warning source "Using the development encryption key"
      pure (.text developmentKey)
    else pure .null

/-- Makes a sealer; without any master key the program ends. -/
def create (around : Surroundings) (options : Options) : Act Settings Sealer := do
  let masterKey ←
    if options.masterKey.isGiven then pure options.masterKey else findMasterKey around
  if !masterKey.isGiven then
    Act.note .critical source "No master encryption key provided or found in environment"
    Act.fail (.exit 1)
  let algorithm ← Act.ofExcept <| Algorithm.ofValue
    (← Settings.orQuery around options.algorithm "encryption.algorithm" (.text "AES-GCM"))
  let iterations ← Act.ofExcept <| Value.toInt
    (← Settings.orQuery around options.iterations "encryption.key_iterations" (.int 100000))
  let signatureName ← Settings.orQuery around options.signatureName "encryption.signature_field"
    (.text "*field_seal_sig*")
  let descriptionName ← Settings.orQuery around options.descriptionName
    "encryption.material_description_field" (.text "*field_seal_desc*")
  pure { masterKey, algorithm, iterations, signatureName, descriptionName, limits := around.limits }

end Sealer

end RecordSeal
