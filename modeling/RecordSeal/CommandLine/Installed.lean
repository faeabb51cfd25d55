import RecordSeal.Model
import RecordSeal.Seal.Setup
import RecordSeal.Text.Pieces

set_option autoImplicit false

/-! # Modules that are there from the beginning

The program has modules of its own and is built on those of a platform. A module that is there from
the beginning has the members it has, model types among them; what is no model type is known by how
messages show it. -/

namespace RecordSeal.CommandLine

/-! ## Members -/

/-- What a name in a module leads to. -/
inductive Member where
  /-- A model type. -/
  | model (id : ModelId)
  /-- Something that is no model type, as messages show it. -/
  | other (shown : String)
  /-- A value with parts, of a kind; it is not looked up among model types. -/
  | container (kind : String)
  /-- The logger of a module, which is shown with the level of the log. -/
  | logger (name : String)

namespace Member

/-- A class that is no model type. -/
def ofClass (module name : String) : Member := .other s!"<class '{module}.{name}'>"

/-- An enumeration. -/
def ofEnum (name : String) : Member := .other s!"<enum '{name}'>"

/-- A class of the platform. -/
def ofPlatform (name : String) : Member := .other s!"<class '{name}'>"

/-- A special form of the platform's types. -/
def ofForm (name : String) : Member := .other s!"typing.{name}"

/-- A text. -/
def ofText (s : String) : Member := .other (Text.quote s)

end Member

/-! ## Modules -/

/-- A module that is there from the beginning. Packages hold further modules. -/
structure Installed where
  name : String
  isPackage : Bool := false
  /-- Whether the module logs under its own name. -/
  logs : Bool := false
  /-- The names of classes and other members that are found in several modules. -/
  names : List String := []
  /-- What else is found in it. -/
  values : List (String × Member) := []

/-- The list of what a package offers. -/
def listing : String × Member := ("__all__", .container "list")

/-- The alias for the records of the program. -/
def recordAlias : String × Member := ("Record", .other "dict[str, typing.Any]")

/-- The alias for the policies of the program. -/
def policiesAlias : String × Member := ("FieldPolicies",
  .other "typing.Mapping[str, frozenset[fieldseal.encryption.flags.EncryptionFlag]]")

/-- The empty set of flags. -/
def noFlags : String × Member := ("NO_FLAGS", .other "frozenset()")

/-- The modules of the program. -/
def programModules : List Installed := [
  { name := "fieldseal", isPackage := true, names := ["AttributeEncryptor", "ClassPolicy",
      "EncryptionFlag", "FieldMapping", "FieldSealConfig", "MappingError", "MappingsRegistry",
      "RecordEncryptor", "SealedModel", "TransformParameters"],
    values := [("__version__", .ofText "0.1.0"), listing] },
  { name := "fieldseal.config", logs := true, names := ["FieldSealConfig", "Path", "os", "sys"] },
  { name := "fieldseal.db", isPackage := true, names := ["ArangoDBClient"],
    values := [listing] },
  { name := "fieldseal.db.arangodb", logs := true, names := ["ArangoDBClient", "ArangoError",
      "FieldSealConfig", "datetime", "sys", "timezone"] },
  { name := "fieldseal.encryption", isPackage := true, names := ["AttributeEncryptor",
      "ClassPolicy", "ClassificationCache", "EncryptionAlgorithm", "EncryptionContext",
      "EncryptionFlag", "EncryptionMetadata", "Encryptor", "RecordEncryptor",
      "TransformParameters"], values := [listing] },
  { name := "fieldseal.encryption.attribute_encryptor", logs := true, names := [
      "AttributeEncryptor", "ClassPolicy", "ClassificationCache", "EncryptionFlag", "Encryptor",
      "MappingError", "ModelMetadataProvider", "TransformParameters"], values := [recordAlias] },
  { name := "fieldseal.encryption.classifier", logs := true, names := ["ClassPolicy",
      "ClassificationCache", "EncryptionFlag", "MappingsRegistry", "ModelMetadataProvider"],
    values := [noFlags] },
  { name := "fieldseal.encryption.context", names := ["Any", "EncryptionContext",
      "ModelMetadataProvider", "TransformParameters"], values := [recordAlias] },
  { name := "fieldseal.encryption.flags", names := ["ClassPolicy", "EncryptionFlag", "Enum",
      "Iterable", "Mapping", "MappingProxyType"], values := [noFlags, policiesAlias] },
  { name := "fieldseal.encryption.record_encryptor", logs := true, names := ["Any", "Cipher",
      "DecryptionError", "EncryptionAlgorithm", "EncryptionContext", "EncryptionFlag",
      "EncryptionMetadata", "Encryptor", "Enum", "FieldSealConfig", "InvalidSignature",
      "InvalidTag", "PBKDF2HMAC", "Protocol", "RecordEncryptor", "SignatureVerificationError",
      "datetime", "os", "sys", "timezone"],
    values := [("NONCE_SIZE", .other (toString nonceSize)), ("TAG_SIZE", .other (toString tagSize)),
      ("DEV_MASTER_KEY", .ofText Sealer.developmentKey), recordAlias, policiesAlias] },
  { name := "fieldseal.exceptions", names := ["DecryptionError", "EncryptorError",
      "MappingError", "SignatureVerificationError"] },
  { name := "fieldseal.log", names := ["FieldSealConfig", "sys"],
    values := [("LOG_FORMAT", .ofText "%(asctime)s %(levelname)s [%(name)s] %(message)s")] },
  { name := "fieldseal.mapper", logs := true, names := ["ArangoDBClient", "AttributeEncryptor",
      "BaseModel", "MappingsRegistry", "SealedMapper", "TransformParameters", "TypeVar"],
    values := [("KEY_SEPARATOR", .ofText ":"), ("T", .other "~T")] },
  { name := "fieldseal.models", isPackage := true, names := ["FieldMapping", "SealedModel",
      "TypeMarker"], values := [listing] },
  { name := "fieldseal.models.markers", names := ["Any", "Callable", "Enum", "Mapping",
      "TypeMarker", "TypeVar"],
    values := [("MARKERS_ATTR", .ofText Forest.markersMember), ("C", .other "~C")] },
  { name := "fieldseal.models.sealed_model", names := ["Any", "BaseModel", "ClassVar",
      "ConfigDict", "FieldInfo", "FieldMapping", "PydanticUndefined", "SealedModel"],
    values := [("FIELD_MARKERS_KEY", .ofText FieldMarkers.extraKey)] },
  { name := "fieldseal.registry", isPackage := true, names := ["MappingsRegistry",
      "ModelMetadataProvider"], values := [listing] },
  { name := "fieldseal.registry.mappings", logs := true, names := ["Any", "BaseModel",
      "FieldMapping", "Mapping", "MappingsRegistry", "ModelMetadataProvider", "Protocol",
      "Sequence", "TypeMarker"] },
  { name := "fieldseal.service", isPackage := true, values := [listing] },
  { name := "fieldseal.service.api", logs := true, names := ["BaseModel", "ClassificationCache",
      "Encryptor", "FastAPI", "FieldSealConfig", "HTTPException", "MappingsRegistry",
      "PolicyResponse", "ResolvePayload", "ResolveResponse"] }]

/-- The modules of the platform of which members are known. -/
def platformModules : List Installed := [
  { name := "builtins", names := ["BaseException", "Exception", "bool", "bytearray", "bytes",
      "classmethod", "complex", "dict", "enumerate", "filter", "float", "frozenset", "int", "list",
      "map", "memoryview", "object", "property", "range", "reversed", "set", "slice",
      "staticmethod", "str", "super", "tuple", "type", "zip"] },
  { name := "collections", isPackage := true, names := ["OrderedDict"], values := [listing] },
  { name := "datetime", names := ["date", "datetime", "time", "timedelta", "timezone", "tzinfo"],
    values := [("sys", .other "<module 'sys' (built-in)>"), listing] },
  { name := "decimal", names := ["Decimal"] },
  { name := "enum", names := ["Enum", "Flag", "IntEnum", "IntFlag", "sys"], values := [listing] },
  { name := "json", isPackage := true, values := [listing] },
  { name := "logging", isPackage := true, names := ["os", "sys"], values := [listing] },
  { name := "os", names := ["sys"], values := [("name", .ofText "posix"), ("sep", .ofText "/"),
      listing] },
  { name := "pathlib", names := ["Path", "os", "sys"], values := [listing] },
  { name := "pydantic", isPackage := true, names := ["BaseModel", "ConfigDict"],
    values := [listing] },
  { name := "pydantic.fields", names := ["FieldInfo", "PydanticUndefined"] },
  { name := "pydantic.main", names := ["BaseModel"] },
  { name := "sys", values := [("argv", .container "list"), ("modules", .container "dict"),
      ("path", .container "list"), ("platform", .ofText "linux")] },
  { name := "typing", names := ["Any", "Callable", "ClassVar", "Iterable", "Mapping", "Protocol",
      "Sequence", "TypeVar"], values := [listing] }]

/-- The names of further modules of the platform. -/
def otherModules : List String := Text.pieces ' ' <|
  "abc argparse array ast atexit base64 bdb binascii bisect bz2 cProfile calendar cgi cmath " ++
  "cmd code codecs codeop collections.abc colorsys concurrent.futures configparser " ++
  "contextlib contextvars copy copyreg csv dataclasses difflib dis doctest email.message " ++
  "errno faulthandler fcntl filecmp fileinput fnmatch fractions ftplib functools gc " ++
  "genericpath getopt getpass gettext glob graphlib grp gzip hashlib heapq hmac html.parser " ++
  "http.client http.server imaplib importlib.metadata importlib.util inspect io ipaddress " ++
  "itertools json.decoder json.encoder keyword linecache locale logging.config " ++
  "logging.handlers lzma mailbox marshal math mimetypes mmap modulefinder netrc ntpath " ++
  "numbers opcode operator optparse pdb pickle pickletools pipes pkgutil platform plistlib " ++
  "poplib posix posixpath pprint profile pstats pty pwd py_compile pyclbr pydoc queue quopri " ++
  "random readline reprlib resource runpy sched secrets select selectors shelve shlex shutil " ++
  "signal site smtplib socket socketserver ssl stat statistics string stringprep struct " ++
  "subprocess symtable sysconfig syslog tarfile tempfile termios textwrap threading time " ++
  "timeit token tokenize trace traceback tracemalloc tty types typing_extensions unicodedata " ++
  "unittest.mock urllib.error urllib.parse urllib.request uuid warnings wave weakref " ++
  "webbrowser xml.etree.ElementTree zipapp zipfile zipimport zlib"

/-- The names of further packages of the platform. -/
def otherPackages : List String := Text.pieces ' ' <|
  "arango asyncio concurrent cryptography ctypes curses dbm distutils email encodings " ++
  "fastapi html http importlib multiprocessing pydantic_core re sqlite3 starlette tomllib " ++
  "unittest urllib uvicorn venv wsgiref xml xml.dom xml.etree xmlrpc yaml zoneinfo"

/-- Further modules of the platform, of which no member is known. -/
def furtherModules : List Installed :=
  otherModules.map (fun name => { name := name }) ++
    otherPackages.map fun name => { name, isPackage := true }

/-! ## Members found in several modules -/

/-- The members that are found in several modules, by name. -/
def sharedMembers : List (String × Member) := [
  ("SealedModel", .model Forest.sealedRoot),
  ("BaseModel", .model Forest.documentRoot),
  ("object", .model Forest.plainRoot),
  ("PolicyResponse", .model Forest.policyResponse),
  ("ResolvePayload", .model Forest.resolvePayload),
  ("ResolveResponse", .model Forest.resolveResponse),
  ("Any", .ofForm "Any"),
  ("ArangoDBClient", .ofClass "fieldseal.db.arangodb" "ArangoDBClient"),
  ("ArangoError", .ofClass "arango.exceptions" "ArangoError"),
  ("AttributeEncryptor", .ofClass "fieldseal.encryption.attribute_encryptor" "AttributeEncryptor"),
  ("Callable", .ofForm "Callable"),
  ("Cipher", .ofClass "cryptography.hazmat.primitives.ciphers.base" "Cipher"),
  ("ClassPolicy", .ofClass "fieldseal.encryption.flags" "ClassPolicy"),
  ("ClassVar", .ofForm "ClassVar"),
  ("ClassificationCache", .ofClass "fieldseal.encryption.classifier" "ClassificationCache"),
  ("ConfigDict", .ofClass "pydantic.config" "ConfigDict"),
  ("Decimal", .ofClass "decimal" "Decimal"),
  ("DecryptionError", .ofClass "fieldseal.exceptions" "DecryptionError"),
  ("EncryptionAlgorithm", .ofEnum "EncryptionAlgorithm"),
  ("EncryptionContext", .ofClass "fieldseal.encryption.context" "EncryptionContext"),
  ("EncryptionFlag", .ofEnum "EncryptionFlag"),
  ("EncryptionMetadata", .ofClass "fieldseal.encryption.record_encryptor" "EncryptionMetadata"),
  ("Encryptor", .ofClass "fieldseal.encryption.record_encryptor" "Encryptor"),
  ("EncryptorError", .ofClass "fieldseal.exceptions" "EncryptorError"),
  ("Enum", .ofEnum "Enum"),
  ("FastAPI", .ofClass "fastapi.applications" "FastAPI"),
  ("FieldInfo", .ofClass "pydantic.fields" "FieldInfo"),
  ("FieldMapping", .ofClass "fieldseal.models.sealed_model" "FieldMapping"),
  ("FieldSealConfig", .ofClass "fieldseal.config" "FieldSealConfig"),
  ("Flag", .ofEnum "Flag"),
  ("HTTPException", .ofClass "fastapi.exceptions" "HTTPException"),
  ("IntEnum", .ofEnum "IntEnum"),
  ("IntFlag", .ofEnum "IntFlag"),
  ("InvalidSignature", .ofClass "cryptography.exceptions" "InvalidSignature"),
  ("InvalidTag", .ofClass "cryptography.exceptions" "InvalidTag"),
  ("Iterable", .ofForm "Iterable"),
  ("Mapping", .ofForm "Mapping"),
  ("MappingError", .ofClass "fieldseal.exceptions" "MappingError"),
  ("MappingProxyType", .ofPlatform "mappingproxy"),
  ("MappingsRegistry", .ofClass "fieldseal.registry.mappings" "MappingsRegistry"),
  ("ModelMetadataProvider", .ofClass "fieldseal.registry.mappings" "ModelMetadataProvider"),
  ("OrderedDict", .ofClass "collections" "OrderedDict"),
  ("PBKDF2HMAC", .ofClass "cryptography.hazmat.primitives.kdf.pbkdf2" "PBKDF2HMAC"),
  ("Path", .ofClass "pathlib" "Path"),
  ("Protocol", .ofClass "typing" "Protocol"),
  ("PydanticUndefined", .other "PydanticUndefined"),
  ("RecordEncryptor", .ofClass "fieldseal.encryption.record_encryptor" "RecordEncryptor"),
  ("SealedMapper", .ofClass "fieldseal.mapper" "SealedMapper"),
  ("Sequence", .ofForm "Sequence"),
  ("SignatureVerificationError", .ofClass "fieldseal.exceptions" "SignatureVerificationError"),
  ("TransformParameters", .ofClass "fieldseal.encryption.context" "TransformParameters"),
  ("TypeMarker", .ofEnum "TypeMarker"),
  ("TypeVar", .ofClass "typing" "TypeVar"),
  ("date", .ofClass "datetime" "date"),
  ("datetime", .ofClass "datetime" "datetime"),
  ("os", .other "<module 'os' (frozen)>"),
  ("sys", .other "<module 'sys' (built-in)>"),
  ("time", .ofClass "datetime" "time"),
  ("timedelta", .ofClass "datetime" "timedelta"),
  ("timezone", .ofClass "datetime" "timezone"),
  ("tzinfo", .ofClass "datetime" "tzinfo")]

/-- What a name leads to in a module that is there from the beginning. Packages know where they
are found. -/
def Installed.memberOf (m : Installed) (name : String) : Option Member :=
  if m.names.contains name then
    some ((Assoc.get? sharedMembers name).getD (.ofPlatform name))
  else if m.logs && name = "logger" then some (.logger m.name)
  else if m.isPackage && name = "__path__" then some (.container "list")
  else Assoc.get? m.values name

/-- The module of a name among those that are there from the beginning. One of them has two names.
Those of which no member is known give way to modules that come with types. -/
def installedModule (f : Forest) (name : String) : Option Installed :=
  let isIt (m : Installed) : Bool := m.name = if name = "os.path" then "posixpath" else name
  let comesWithType := f.types.any (·.module = name)
  ((programModules ++ platformModules).find? isIt).or
    (if comesWithType then none else furtherModules.find? isIt)

end RecordSeal.CommandLine
