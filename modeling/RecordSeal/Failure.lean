import RecordSeal.Base64
import RecordSeal.Json.Printer
import RecordSeal.Json.Reader
import RecordSeal.Number.Literal
import RecordSeal.Text.Utf8

set_option autoImplicit false

/-! # Failures

A failure is a cause with what it concerns; `Failure.message` puts it into words. Causes are
grouped by nature: a value that is refused although its kind is right (`Refusal`), a value of the
wrong kind (`Mismatch`), a member that is not there (`Lack`), a number out of range (`Excess`). -/

namespace RecordSeal

/-- Why a value is refused although its kind is right. -/
inductive Refusal where
  | unknownFlag (shown : String)
  | unknownAlgorithm (shown : String)
  | noIterations
  | notWhole (text : String) (fault : Literal.Fault)
  | undefinedNumber
  | emptyOverride
  | splitAlias (option : String)
  | noHashKey (model : String)
  | notFound (key table : String)
  | unknownLevel (name : String)
  | incompletePath (path : String)
  | emptyModuleName
  | nullInTypeName
  | nullByte
  | variableName
  /-- An item that is to be a pair has another number of parts. -/
  | notPair (index length : Nat)
  deriving DecidableEq

/-- The wording of a refusal. -/
def Refusal.message : Refusal → String
  | .unknownFlag shown => s!"{shown} is not a valid EncryptionFlag"
  | .unknownAlgorithm shown => s!"{shown} is not a valid EncryptionAlgorithm"
  | .noIterations => "iterations must be greater than or equal to 1."
  | .notWhole text fault => fault.message text
  | .undefinedNumber => "cannot convert float NaN to integer"
  | .emptyOverride => "table_aad_override requires a table name"
  | .splitAlias option => s!"SealedField does not accept {option}; use alias"
  | .noHashKey model => s!"Model {model} has no hash key"
  | .notFound key table => s!"Document {key} not found in {table}"
  | .unknownLevel name => s!"Unknown level: {Text.quote name}"
  | .incompletePath path => s!"Expected MODULE:CLASS, got {Text.quote path}"
  | .emptyModuleName => "Empty module name"
  | .nullInTypeName => "type name must not contain null characters"
  | .nullByte => "embedded null byte"
  | .variableName => "illegal environment variable name"
  | .notPair index length =>
    s!"dictionary update sequence element #{index} has length {length}; 2 is required"

/-- What is wrong with the named arguments of a field mapping. -/
inductive ArgumentFault where
  | unexpected (name : String)
  | missing (names : List String)
  | repeated (name : String)
  | notMapping (kind : String)
  deriving DecidableEq

/-- The wording of a fault in the arguments of a field mapping. -/
def ArgumentFault.message : ArgumentFault → String
  | .unexpected name => s!"FieldMapping.__init__() got an unexpected keyword argument '{name}'"
  | .missing names =>
    let shown := " and ".intercalate (names.map fun n => s!"'{n}'")
    let plural := if names.length = 1 then "argument" else "arguments"
    s!"FieldMapping.__init__() missing {names.length} required positional {plural}: {shown}"
  | .repeated name =>
    "fieldseal.models.sealed_model.FieldMapping() got multiple values for keyword argument " ++
      s!"'{name}'"
  | .notMapping kind =>
    "fieldseal.models.sealed_model.FieldMapping() argument after ** must be a mapping, not " ++ kind

/-- A value of a kind that cannot be used so. -/
inductive Mismatch where
  | notName (kind : String)
  | noFields (kind : String)
  | noAssignment (kind : String)
  | notJsonText (kind : String)
  | notBase64Text (kind : String)
  | notNumber (kind : String)
  | notClassifiable (shown : String)
  | immutableType (name member : String)
  | relativeModule (name : String)
  | notIterable (kind : String)
  | notContainer (kind : String)
  | notPath (kind : String)
  | notVariable (kind : String)
  | notSequence (index : Nat)
  /-- There is no order between two kinds of names. -/
  | notOrdered (later earlier : String)
  | notAlias (option : String)
  | arguments (fault : ArgumentFault)
  deriving DecidableEq

/-- The wording of a mismatch. -/
def Mismatch.message : Mismatch → String
  | .notName kind => s!"unhashable type: '{kind}'"
  | .noFields kind =>
    if kind = "list" then "list indices must be integers or slices, not str"
    else if kind = "str" then "string indices must be integers, not 'str'"
    else if kind = "bytes" then "byte indices must be integers or slices, not str"
    else s!"'{kind}' object is not subscriptable"
  | .noAssignment kind =>
    if kind = "list" then "list indices must be integers or slices, not str"
    else s!"'{kind}' object does not support item assignment"
  | .notJsonText kind => s!"the JSON object must be str, bytes or bytearray, not {kind}"
  | .notBase64Text kind =>
    s!"argument should be a bytes-like object or ASCII string, not '{kind}'"
  | .notNumber kind =>
    "int() argument must be a string, a bytes-like object or a real number, not " ++ s!"'{kind}'"
  | .notClassifiable shown => s!"{shown} is not a pydantic model and has not been registered"
  | .immutableType name member =>
    s!"cannot set '{member}' attribute of immutable type '{name}'"
  | .relativeModule name =>
    "the 'package' argument is required to perform a relative import for " ++ Text.quote name
  | .notIterable kind => s!"'{kind}' object is not iterable"
  | .notContainer kind => s!"argument of type '{kind}' is not iterable"
  | .notPath kind => s!"expected str, bytes or os.PathLike object, not {kind}"
  | .notVariable kind => s!"str expected, not {kind}"
  | .notSequence index =>
    s!"cannot convert dictionary update sequence element #{index} to a sequence"
  | .notOrdered later earlier =>
    s!"'<' not supported between instances of '{later}' and '{earlier}'"
  | .notAlias option =>
    s!"Invalid \x60{option}\x60 type. it should be \x60str\x60, \x60AliasChoices\x60, " ++
      "or \x60AliasPath\x60"
  | .arguments fault => fault.message

/-- A member that something does not have. -/
inductive Lack where
  | ofValue (kind member : String)
  | ofType (type member : String)
  | ofModule (module member : String)
  | bare (member : String)
  deriving DecidableEq

/-- The wording of a lack. -/
def Lack.message : Lack → String
  | .ofValue kind member => s!"'{kind}' object has no attribute '{member}'"
  | .ofType type member => s!"type object '{type}' has no attribute '{member}'"
  | .ofModule module member => s!"module '{module}' has no attribute '{member}'"
  | .bare member => member

/-- A number out of range. -/
inductive Excess where
  | negative
  | tooLarge
  | infinite
  | tooLargeForFloat
  deriving DecidableEq

/-- The wording of an excess. -/
def Excess.message : Excess → String
  | .negative => "can't convert negative int to unsigned"
  | .tooLarge => "int too big to convert"
  | .infinite => "cannot convert float infinity to integer"
  | .tooLargeForFloat => "int too large to convert to float"

/-- Why an encrypted attribute cannot be decrypted. -/
inductive CipherFault where
  | notText
  | notBase64
  | tooShort
  | notAuthentic
  deriving DecidableEq

/-- The wording for an attribute that cannot be decrypted. -/
def CipherFault.message (name : String) : CipherFault → String
  | .notText => s!"Attribute {name} is not an encrypted value"
  | .notBase64 => s!"Attribute {name} is not valid base64"
  | .tooShort => s!"Attribute {name} is too short to be encrypted"
  | .notAuthentic => s!"Attribute {name} failed authentication"

/-- The two ways a record is transformed. -/
inductive Direction where
  | encrypt
  | decrypt
  deriving DecidableEq

/-- The verb of a direction. -/
def Direction.verb : Direction → String
  | .encrypt => "encrypt"
  | .decrypt => "decrypt"

/-- A step on the way to a value that fails validation. -/
inductive Step where
  | key (name : String)
  | index (n : Int)
  deriving DecidableEq

/-- A value that fails validation: where it is and what is wrong. -/
structure Issue where
  place : List Step
  problem : String
  deriving DecidableEq

/-- Why an operation failed. -/
inductive Failure where
  | refused (why : Refusal)
  | mismatched (why : Mismatch)
  | lacking (why : Lack)
  | exceeded (why : Excess)
  /-- No entry under a key, shown as it is. -/
  | noEntry (shown : String)
  | unwritable (why : Json.Obstacle)
  | malformedJson (fault : Json.Fault)
  | malformedText (fault : Text.DecodeFault)
  | unencodable (fault : Text.EncodeFault)
  /-- The record carries no signature or no description. -/
  | notSigned
  /-- The description or the signature of a record cannot be read. -/
  | malformedDescription (cause : Failure)
  | malformedBase64 (fault : Base64.Fault)
  /-- The signature is not that of the record. -/
  | wrongSignature
  | undecryptable (name : String) (why : CipherFault)
  /-- A record could not be transformed on its way to or from the store. -/
  | mapping (direction : Direction) (model : String) (cause : Failure)
  | invalid (issues : List Issue)
  /-- A declared field whose name begins with an underscore. -/
  | hiddenField (name : String)
  /-- An instance holds an object of which only its kind is known. -/
  | unknownObject
  | unknownModel (name : String)
  /-- No module of a name; below a parent that holds no modules if one is given. -/
  | noModule (name : String) (parent : Option String)
  | collectionExists
  /-- A path, or a name along it, that is too long to be looked up. -/
  | pathTooLong (path : String)
  /-- An environment variable without a name. -/
  | namelessVariable
  | exit (code : Nat)
  /-- A failure that a rehearsal was told to give, and whether it ends the program. -/
  | rehearsed (kind message : String) (endsProgram : Bool)

namespace Failure

/-- The wording of a failure. -/
def message : Failure → String
  | .refused why => why.message
  | .mismatched why => why.message
  | .lacking why => why.message
  | .exceeded why => why.message
  | .noEntry shown => shown
  | .unwritable why => why.message
  | .malformedJson fault => fault.message
  | .malformedText fault => fault.message
  | .unencodable fault => fault.message
  | .malformedBase64 fault => fault.message
  | .notSigned => "Record is not signed"
  | .malformedDescription cause => s!"Malformed material description: {cause.message}"
  | .wrongSignature => "Record signature does not match"
  | .undecryptable name why => why.message name
  | .mapping direction model cause =>
    s!"Failed to {direction.verb} {model}: {cause.message}"
  | .invalid _ => "validation failed"
  | .hiddenField name =>
    let bare := String.ofList (name.toList.dropWhile (· = '_'))
    let better := Text.quote (if bare = "" then "my_field" else bare)
    "Fields must not use names with leading underscores; " ++
      s!"e.g., use {better} instead of {Text.quote name}."
  | .unknownObject => "Unable to serialize unknown type: <class '__main__.Opaque'>"
  | .unknownModel name => s!"Unknown model: {name}"
  | .noModule name none => s!"No module named {Text.quote name}"
  | .noModule name (some parent) =>
    s!"No module named {Text.quote name}; {Text.quote parent} is not a package"
  | .pathTooLong path => s!"[Errno 36] File name too long: {Text.quote path}"
  | .namelessVariable => "[Errno 22] Invalid argument"
  | .collectionExists => "[HTTP 409][ERR 1207] duplicate name"
  | .exit code => toString code
  | .rehearsed _ message _ => message

/-- Whether the failure ends the program; nothing turns such a failure into another one. -/
def isExit : Failure → Bool
  | .exit _ => true
  | .rehearsed _ _ endsProgram => endsProgram
  | _ => false

end Failure

end RecordSeal
