import RecordSeal.CommandLine.Installed

set_option autoImplicit false

/-! # Modules

Types are named on the command line by a module and a name in it. A type that is defined under the
name of a module that is not there from the beginning brings that module with it and is found
there. -/

namespace RecordSeal.CommandLine

/-! ## Finding modules -/

/-- Whether a module is there: from the beginning, or with a type. -/
def hasModule (f : Forest) (module : String) : Bool :=
  (installedModule f module).isSome || f.types.any (·.module = module)

/-- Whether a module holds further modules. -/
def isPackage (f : Forest) (module : String) : Bool :=
  (installedModule f module).any (·.isPackage)

/-- Looks for the module whose names, last first, are given. Only packages hold further ones. -/
def findModule (f : Forest) : List String → Except Failure Unit
  | [] => .ok ()
  | last :: above =>
    let name := Text.joined '.' (last :: above).reverse
    let parent := Text.joined '.' above.reverse
    if hasModule f name then .ok ()
    else if above.isEmpty then .error (.noModule name none)
    else do
      findModule f above
      .error (.noModule name (if isPackage f parent then none else some parent))

/-- Makes sure that a module is there. -/
def requireModule (f : Forest) (module : String) : Except Failure Unit :=
  if module = "" then .error (.refused .emptyModuleName)
  else if module.toList.head? = some '.' then .error (.mismatched (.relativeModule module))
  else findModule f (Text.pieces '.' module).reverse

/-! ## Finding members -/

/-- What every module has of its own. -/
def commonMember (module : String) : String → Option Member
  | "__name__" => some (.ofText module)
  | "__class__" => some (.ofPlatform "module")
  | "__dict__" => some (.container "dict")
  | "__annotations__" => some (.container "dict")
  | _ => none

/-- What a module that is there from the beginning has of its own: the package it belongs to, which
is the module itself if it is one, and the members that are found in every module. -/
def Installed.ownMember (m : Installed) : String → Option Member
  | "__package__" =>
    let parents := (Text.pieces '.' m.name).dropLast
    some (.ofText (if m.isPackage then m.name else Text.joined '.' parents))
  | "__builtins__" => some (.container "dict")
  | name => commonMember m.name name

/-- What a module that came with a type has of its own: it says nothing of its origin. -/
def plainMember (module : String) : String → Option Member
  | "__doc__" => some (.other "None")
  | "__package__" => some (.other "None")
  | "__loader__" => some (.other "None")
  | "__spec__" => some (.other "None")
  | name => commonMember module name

/-- What a name in a module leads to. Types that are defined under the name of a module that is
there from the beginning are not found in it. -/
def findMember (f : Forest) (module name : String) : Option Member :=
  match installedModule f module with
  | some m => (m.memberOf name).or (m.ownMember name)
  | none => ((f.findInModule module name).map .model).or (plainMember module name)

/-- The name that a module has of its own. -/
def moduleName (f : Forest) (module : String) : String :=
  match installedModule f module with
  | some m => m.name
  | none => module

/-- The type that a name in a module leads to. Loggers are shown with the level of the log. -/
def typeInModule (f : Forest) (log : Log) (module name : String) : Except Failure ModelId :=
  match findMember f module name with
  | some (.model id) => .ok id
  | some (.other shown) => .error (.mismatched (.notClassifiable shown))
  | some (.container kind) => .error (.mismatched (.notName kind))
  | some (.logger name) =>
    .error (.mismatched (.notClassifiable s!"<Logger {name} ({log.levelName})>"))
  | none => .error (.lacking (.ofModule (moduleName f module) name))

end RecordSeal.CommandLine
