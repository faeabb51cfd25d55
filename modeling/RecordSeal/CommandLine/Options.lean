import RecordSeal.Assoc
import RecordSeal.Number.Literal

set_option autoImplicit false

/-! # Command line options

Arguments are options and their values. An option may be shortened to a beginning that no other one
has. It takes its value after an equals sign or from the next argument, unless that looks like an
option itself. Bad values end the program where they stand; arguments that no option takes end it
after all others. -/

namespace RecordSeal.CommandLine

/-- What the command line asks for. -/
structure Options where
  host : Option String := none
  port : Option Int := none
  config : Option String := none
  mode : Option String := none
  reload : Bool := false
  modules : List String := []
  showPolicy : Option String := none

/-- The options there are. -/
inductive OptionName where
  | help
  | host
  | port
  | config
  | mode
  | reload
  | module
  | showPolicy
  deriving DecidableEq

/-- The texts of the options. -/
def optionTexts : List (String × OptionName) := [
  ("-h", .help), ("--help", .help), ("--host", .host), ("--port", .port), ("--config", .config),
  ("--mode", .mode), ("--reload", .reload), ("--model", .module), ("--show-policy", .showPolicy)]

/-! ## Arguments -/

/-- The parts of an argument before and after its first equals sign. -/
def splitAtEquals (arg : List Char) : Option (List Char × List Char) :=
  match arg.dropWhile (· ≠ '=') with
  | [] => none
  | _ :: rest => some (arg.takeWhile (· ≠ '='), rest)

/-- Whether an argument is a negative number, which counts as a value: digits of any script with
at most one point, at least one digit after it, and perhaps a line end. -/
def isNegativeNumber : List Char → Bool
  | '-' :: rest =>
    let cs := if rest.getLast? = some '\n' then rest.dropLast else rest
    let isDigit (c : Char) := (Text.decimalValue? c).isSome
    match cs.dropWhile isDigit with
    | [] => !cs.isEmpty
    | '.' :: fraction => !fraction.isEmpty && fraction.all isDigit
    | _ => false
  | _ => false

/-- What an argument is. -/
inductive Argument where
  /-- A value, or an argument that no option takes. -/
  | value
  /-- An option, perhaps with a value of its own. -/
  | option (name : OptionName) (given : Option String)
  /-- The beginning of several options. -/
  | ambiguous
  /-- An option that there is not. -/
  | unknown
  deriving DecidableEq

/-- An option with the text that came with it. Letters that ask for help once more are no value. -/
def Argument.withText (text : String) (name : OptionName) (given : List Char) : Argument :=
  if text = "-h" ∧ given ≠ [] ∧ given.all (· = 'h') then .option name none
  else .option name (some (String.ofList given))

/-- The options that an argument may stand for: those that it begins, up to an equals sign; an
option of one letter may have more letters after it. -/
def candidates (cs : List Char) : List Argument :=
  match cs with
  | '-' :: '-' :: _ =>
    let (start, given) := match splitAtEquals cs with
      | some (start, given) => (start, some (String.ofList given))
      | none => (cs, none)
    (optionTexts.filter fun e => start.isPrefixOf e.1.toList).map fun e => .option e.2 given
  | _ =>
    (optionTexts.filter fun e => e.1.toList = cs.take 2).map fun e =>
      .withText e.1 e.2 (cs.drop 2)

/-- What an argument is that begins with a dash and is no full option by itself. -/
def Argument.ofLong (cs : List Char) : Argument :=
  let full? := (splitAtEquals cs).bind fun (start, given) =>
    (optionTexts.find? fun e => e.1.toList = start).map fun e => withText e.1 e.2 given
  match full?, candidates cs with
  | some a, _ => a
  | none, [a] => a
  | none, _ :: _ => .ambiguous
  | none, [] => if isNegativeNumber cs ∨ ' ' ∈ cs then .value else .unknown

/-- Tells what an argument is. -/
def Argument.ofText (arg : String) : Argument :=
  let cs := arg.toList
  match Assoc.get? optionTexts arg with
  | some name => .option name none
  | none => if cs.head? ≠ some '-' ∨ cs = ['-'] then .value else ofLong cs

/-! ## Reading -/

/-- The exit code for bad arguments. -/
def badUsage : Nat := 2

/-- Takes the value of an option. -/
def Options.take (o : Options) (name : OptionName) (v : String) : Except Nat Options :=
  match name with
  | .host => .ok { o with host := some v }
  | .port =>
    match Literal.read v.toList with
    | .ok n => .ok { o with port := some n }
    | .error _ => .error badUsage
  | .config => .ok { o with config := some v }
  | .mode => if v = "DEV" ∨ v = "PROD" then .ok { o with mode := some v } else .error badUsage
  | .module => .ok { o with modules := o.modules ++ [v] }
  | .showPolicy => .ok { o with showPolicy := some v }
  | .help => .error badUsage
  | .reload => .error badUsage

/-- Reads arguments; `stray` says whether one was met that no option takes. -/
def readFrom (o : Options) (stray : Bool) : List String → Except Nat Options
  | [] => if stray then .error badUsage else .ok o
  | arg :: rest =>
    if arg = "--" then .error badUsage else
    match Argument.ofText arg with
    | .option .help none => .error 0
    | .option .reload none => readFrom { o with reload := true } stray rest
    | .option name (some v) => (o.take name v).bind fun o => readFrom o stray rest
    | .option name none =>
      match rest with
      | v :: rest' =>
        if v ≠ "--" ∧ Argument.ofText v = .value then
          (o.take name v).bind fun o => readFrom o stray rest'
        else .error badUsage
      | [] => .error badUsage
    | _ => readFrom o true rest

/-- Whether an argument before a double dash is the beginning of several options. -/
def hasAmbiguous (args : List String) : Bool :=
  (args.takeWhile (· ≠ "--")).any fun a => Argument.ofText a = .ambiguous

/-- Reads a command line, or gives the exit code. An ambiguous argument is refused before any other
one counts. -/
def Options.read (args : List String) : Except Nat Options :=
  if hasAmbiguous args then .error badUsage else readFrom {} false args

end RecordSeal.CommandLine
