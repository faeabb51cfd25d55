import RecordSeal.Model.Field
import RecordSeal.Number.Spelled

set_option autoImplicit false

/-! # What fields take

A field takes the values of its type, and values of other kinds that stand for one: bytes for the
text they encode, whole numbers and truth values for numbers, numbers without a fraction for whole
ones, and texts for the numbers they spell. `FieldType.accept` gives the value taken, or everything
that is wrong. -/

namespace RecordSeal

namespace Acceptance

/-! ## Texts -/

/-- A text for a value that is one or encodes one. -/
def text : Value → Except String Value
  | .text s => .ok (.text s)
  | .brokenText ps => .ok (.brokenText ps)
  | .bytes bs =>
    ((Text.ofUtf8 bs).map fun cs => .text (String.ofList cs)).mapError fun _ => "string_unicode"
  | _ => .error "string_type"

/-- The characters of a value that is a text or encodes one; `problem` is what is wrong with bytes
that encode none. Other values have no characters. -/
def characters? (problem : String) : Value → Option (Except String (List Char))
  | .text s => some (.ok s.toList)
  | .brokenText _ => some (.error "string_unicode")
  | .bytes bs => some ((Text.ofUtf8 bs).mapError fun _ => problem)
  | _ => none

/-- What a value spells, if it is a text or encodes one. -/
def spelled? {α : Type} (problem : String) (read : List Char → Option α) (v : Value) :
    Option (Except String α) :=
  (characters? problem v).map fun characters => do
    match read (← characters) with
    | some a => .ok a
    | none => .error problem

/-! ## Numbers and truth values -/

/-- Whether a whole number fits into eight bytes. -/
def fits (n : Int) : Bool := -(twoTo 63 : Int) ≤ n && n < twoTo 63

/-- The whole number that a floating-point number is. -/
def wholeOf (x : Binary64) : Except String Int :=
  if !x.isFinite then .error "finite_number" else
  match x.whole? with
  | none => .error "int_from_float"
  | some n => if fits n then .ok n else .error "int_parsing_size"

/-- The floating-point number nearest to a whole one. -/
def floatNear (n : Int) : Except String Value :=
  let x := Binary64.ofInt n
  if x.isFinite then .ok (.float x) else .error "float_type"

/-- A whole number for a value. -/
def int : Value → Except String Value
  | .int n => .ok (.int n)
  | .bool b => .ok (.int (if b then 1 else 0))
  | .float x => (wholeOf x).map .int
  | v => ((spelled? "int_parsing" Spelled.whole? v).getD (.error "int_type")).map .int

/-- A floating-point number for a value. -/
def float : Value → Except String Value
  | .float x => .ok (.float x)
  | .int n => floatNear n
  | .bool b => floatNear (if b then 1 else 0)
  | v => ((spelled? "float_parsing" Spelled.float? v).getD (.error "float_type")).map .float

/-- The truth value that a whole number stands for. -/
def truthOf (n : Int) : Except String Value :=
  if n = 0 then .ok (.bool false)
  else if n = 1 then .ok (.bool true)
  else if fits n then .error "bool_parsing"
  else .error "bool_type"

/-- A truth value for a value. -/
def bool : Value → Except String Value
  | .bool b => .ok (.bool b)
  | .int n => truthOf n
  | .float x =>
    match wholeOf x with
    | .ok n => truthOf n
    | .error _ => .error "bool_type"
  | v => ((spelled? "bool_parsing" Spelled.truth? v).getD (.error "bool_type")).map .bool

/-! ## Lists -/

/-- Texts for values, or the issues of all that stand for none; the first value is at a place
followed by a number. -/
def texts (place : List Step) : Nat → List Value → Except (List Issue) (List Value)
  | _, [] => .ok []
  | i, v :: rest =>
    match text v, texts place (i + 1) rest with
    | .ok w, .ok ws => .ok (w :: ws)
    | .ok _, .error issues => .error issues
    | .error problem, .ok _ => .error [⟨place ++ [.index i], problem⟩]
    | .error problem, .error issues => .error (⟨place ++ [.index i], problem⟩ :: issues)

end Acceptance

/-- The value that a field of a type takes for a given one. -/
def FieldType.accept (place : List Step) (type : FieldType) (v : Value) :
    Except (List Issue) Value :=
  let alone (result : Except String Value) : Except (List Issue) Value :=
    result.mapError fun problem => [⟨place, problem⟩]
  match type with
  | .any => .ok v
  | .text => alone (Acceptance.text v)
  | .optionalText => if v.isNull then .ok .null else alone (Acceptance.text v)
  | .int => alone (Acceptance.int v)
  | .float => alone (Acceptance.float v)
  | .bool => alone (Acceptance.bool v)
  | .texts =>
    match v with
    | .list vs => (Acceptance.texts place 0 vs).map .list
    | _ => alone (.error "list_type")
  | .object =>
    match v with
    | .object fields => .ok (.object fields)
    | _ => alone (.error "dict_type")

end RecordSeal
