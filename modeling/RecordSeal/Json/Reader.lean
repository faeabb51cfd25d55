import RecordSeal.Json.Limits
import RecordSeal.Value

set_option autoImplicit false

/-! # Reading JSON

`read` takes a text to the value it describes or to the fault that stopped it, with its place.
The names of infinities and of what is not a number are read as well; of fields with one name the
last value counts, in the first one's place. Texts may hold lone surrogates, as they are or by
escapes. A step of the reader returns the rest of the text, or says where and why it stopped. -/

namespace RecordSeal.Json

open Text (Point)

/-! ## Faults -/

/-- Why a text is not JSON. -/
inductive Reason where
  | value
  | name
  | colon
  | comma
  | control
  | unterminated
  | escape
  | unicodeEscape
  | more
  | mark
  deriving DecidableEq

/-- The wording of a reason. -/
def Reason.text : Reason → String
  | .value => "Expecting value"
  | .name => "Expecting property name enclosed in double quotes"
  | .colon => "Expecting ':' delimiter"
  | .comma => "Expecting ',' delimiter"
  | .control => "Invalid control character at"
  | .unterminated => "Unterminated string starting at"
  | .escape => "Invalid \\escape"
  | .unicodeEscape => "Invalid \\uXXXX escape"
  | .more => "Extra data"
  | .mark => "Unexpected UTF-8 BOM (decode using utf-8-sig)"

/-- Why a text is not read. -/
inductive Fault where
  /-- It is not JSON. Lines and columns count from one, characters from zero. -/
  | form (reason : Reason) (line column offset : Nat)
  /-- A whole number has more digits than allowed. -/
  | tooLong (limit digits : Nat)
  /-- Too many lists and objects are inside each other. -/
  | tooDeep (container : Container)
  deriving DecidableEq

/-- The wording of a fault. -/
def Fault.message : Fault → String
  | .form reason line column offset =>
    s!"{reason.text}: line {line} column {column} (char {offset})"
  | .tooLong limit digits => Literal.tooLongMessage limit digits
  | .tooDeep container =>
    s!"maximum recursion depth exceeded while decoding a JSON {container.text} from " ++
      "a unicode string"

/-- Why a step stopped; a place is the number of characters that were left. -/
inductive Stop where
  | form (reason : Reason) (left : Nat)
  | tooLong (limit digits : Nat)
  | tooDeep (container : Container)
  deriving DecidableEq

/-- The fault of a text at which a step stopped. -/
def Stop.fault (text : List Point) : Stop → Fault
  | .form reason left =>
    let before := text.take (text.length - left)
    let lastLine := before.reverse.takeWhile (· ≠ .char '\n')
    .form reason (before.count (.char '\n') + 1) (lastLine.length + 1) before.length
  | .tooLong limit digits => .tooLong limit digits
  | .tooDeep container => .tooDeep container

/-! ## Texts -/

/-- Drops blanks. -/
def skipBlanks (ps : List Point) : List Point :=
  ps.dropWhile fun p => p = .char ' ' ∨ p = .char '\t' ∨ p = .char '\n' ∨ p = .char '\r'

/-- The value of a hexadecimal digit. -/
def hexValue? (c : Char) : Option Nat :=
  if '0' ≤ c ∧ c ≤ '9' then some (c.toNat - 48)
  else if 'a' ≤ c ∧ c ≤ 'f' then some (c.toNat - 87)
  else if 'A' ≤ c ∧ c ≤ 'F' then some (c.toNat - 55)
  else none

/-- The number of hexadecimal digits. -/
def unit? (ps : List Point) : Option Nat :=
  ps.foldl (fun n p => n.bind fun n => (p.char?.bind hexValue?).map (16 * n + ·)) (some 0)

/-- The character that a one-letter escape stands for. -/
def shortEscape? : Point → Option Char
  | .char '"' => some '"'
  | .char '\\' => some '\\'
  | .char '/' => some '/'
  | .char 'b' => some '\x08'
  | .char 'f' => some '\x0c'
  | .char 'n' => some '\n'
  | .char 'r' => some '\r'
  | .char 't' => some '\t'
  | _ => none

/-- Reads the four digits after `\u`; at least one more character must follow them. -/
def unitAfter (ps : List Point) : Except Stop (Nat × List Point) :=
  if ps.length ≤ 4 then .error (.form .unicodeEscape (ps.length + 1)) else
  match unit? (ps.take 4) with
  | some n => .ok (n, ps.drop 4)
  | none => .error (.form .unicodeEscape (ps.length + 1))

/-- Reads an escape by number: a second unit is joined to a leading surrogate if it is a trailing
one. -/
def numberEscape (ps : List Point) : Except Stop (Point × List Point) := do
  let (high, rest) ← unitAfter ps
  -- A second escape that is cut off by the end of the text is left to be read on its own.
  if 0xD800 ≤ high ∧ high < 0xDC00 ∧ 6 < rest.length ∧ rest.take 2 = Text.points ['\\', 'u'] then
    let (low, rest') ← unitAfter (rest.drop 2)
    if 0xDC00 ≤ low ∧ low < 0xE000 then
      pure (.ofCode (0x10000 + (high - 0xD800) * 0x400 + (low - 0xDC00)), rest')
    else pure (.ofCode high, rest)
  else pure (.ofCode high, rest)

/-- Reads a text up to its closing quote. `start` is what was left at the opening quote, and the
fuel is the number of characters left. -/
def textBody (start : Nat) : Nat → List Point → Except Stop (List Point × List Point)
  | 0, _ => .error (.form .unterminated start)
  | _, [] => .error (.form .unterminated start)
  | _ + 1, .char '"' :: rest => .ok ([], rest)
  | _ + 1, [.char '\\'] => .error (.form .unterminated start)
  | fuel + 1, .char '\\' :: .char 'u' :: rest => do
    let (p, rest') ← numberEscape rest
    let (ps, rest'') ← textBody start fuel rest'
    pure (p :: ps, rest'')
  | fuel + 1, .char '\\' :: e :: rest =>
    match shortEscape? e with
    | none => .error (.form .escape (rest.length + 2))
    | some c => do
      let (ps, rest') ← textBody start fuel rest
      pure (.char c :: ps, rest')
  | fuel + 1, p :: rest =>
    if p.code < 0x20 then .error (.form .control (rest.length + 1)) else do
      let (ps, rest') ← textBody start fuel rest
      pure (p :: ps, rest')

/-- Reads a text whose opening quote has been taken. -/
def readText (ps : List Point) : Except Stop (List Point × List Point) :=
  textBody (ps.length + 1) (ps.length + 1) ps

/-! ## Numbers -/

/-- The digits at the beginning of a text, and the rest. -/
def spanDigits : List Point → List Char × List Point
  | .char c :: rest =>
    if Decimal.isDigit c then
      let (ds, rest') := spanDigits rest
      (c :: ds, rest')
    else ([], .char c :: rest)
  | ps => ([], ps)

/-- The digits before the point: a zero, or digits that do not begin with one. -/
def wholePart? (ps : List Point) : Option (List Char × List Point) :=
  match ps with
  | .char '0' :: rest => some (['0'], rest)
  | .char c :: _ => if Decimal.isDigit c then some (spanDigits ps) else none
  | _ => none

/-- The digits after a point, if there are any. -/
def fractionPart (ps : List Point) : List Char × List Point :=
  match ps with
  | .char '.' :: rest =>
    let (ds, rest') := spanDigits rest
    if ds.isEmpty then ([], ps) else (ds, rest')
  | _ => ([], ps)

/-- The exponent, if there is a complete one. -/
def exponentPart (ps : List Point) : Option Int × List Point :=
  let after (sign : Int) (rest : List Point) : Option Int × List Point :=
    let (ds, rest') := spanDigits rest
    if ds.isEmpty then (none, ps) else (some (sign * Decimal.toNat ds), rest')
  match ps with
  | .char e :: rest =>
    if e = 'e' ∨ e = 'E' then
      match rest with
      | .char '+' :: rest' => after 1 rest'
      | .char '-' :: rest' => after (-1) rest'
      | _ => after 1 rest
    else (none, ps)
  | _ => (none, ps)

/-- Reads the number whose digits before the point have been taken: whole if it has neither a
fraction nor an exponent. -/
def numberAfter (lim : Limits) (negative : Bool) (whole : List Char) (rest : List Point) :
    Except Stop (Value × List Point) :=
  let (fraction, rest') := fractionPart rest
  let (exponent, rest'') := exponentPart rest'
  if fraction.isEmpty && exponent.isNone then
    let n : Int := Decimal.toNat whole
    if lim.digits < whole.length then .error (.tooLong lim.digits whole.length)
    else .ok (.int (if negative then -n else n), rest'')
  else
    let e : Int := exponent.getD 0 - fraction.length
    .ok (.float (Binary64.ofDecimal negative (Decimal.toNat (whole ++ fraction)) e), rest'')

/-- Whether a text begins with a minus sign, and what follows it. -/
def takeMinus : List Point → Bool × List Point
  | .char '-' :: rest => (true, rest)
  | ps => (false, ps)

/-- Reads a number. -/
def readNumber (lim : Limits) (ps : List Point) : Except Stop (Value × List Point) :=
  let (negative, unsigned) := takeMinus ps
  match wholePart? unsigned with
  | some (whole, rest) => numberAfter lim negative whole rest
  | none => .error (.form .value ps.length)

/-- The names that stand for a value. -/
def names : List (List Point × Value) := [
  (Text.points "null".toList, .null),
  (Text.points "true".toList, .bool true),
  (Text.points "false".toList, .bool false),
  (Text.points "NaN".toList, .float Binary64.undefined),
  (Text.points "Infinity".toList, .float (Binary64.infinity false)),
  (Text.points "-Infinity".toList, .float (Binary64.infinity true))]

/-- Reads a name or a number. -/
def readAtom (lim : Limits) (ps : List Point) : Except Stop (Value × List Point) :=
  match names.find? fun e => e.1.isPrefixOf ps with
  | some (name, v) => .ok (v, ps.drop name.length)
  | none => readNumber lim ps

/-! ## Values -/

mutual

/-- Reads a value; each list and object takes one from the depth that is left. -/
def readValue : Nat → Limits → List Point → Except Stop (Value × List Point)
  | 0, _, ps => .error (.form .value ps.length)
  | _ + 1, _, .char '"' :: rest =>
    (readText rest).map fun (t, rest') => (Value.ofPoints t, rest')
  -- Depth runs out before the brackets are looked into, empty or not.
  | _ + 1, ⟨_, 0⟩, .char '[' :: _ => .error (.tooDeep .array)
  | fuel + 1, ⟨digits, depth + 1⟩, .char '[' :: rest =>
    match skipBlanks rest with
    | .char ']' :: rest' => .ok (.list [], rest')
    | rest' => (readItems fuel ⟨digits, depth⟩ rest').map fun (vs, rest'') => (.list vs, rest'')
  | _ + 1, ⟨_, 0⟩, .char '\x7b' :: _ => .error (.tooDeep .object)
  | fuel + 1, ⟨digits, depth + 1⟩, .char '\x7b' :: rest =>
    match skipBlanks rest with
    | .char '\x7d' :: rest' => .ok (.object [], rest')
    | rest' =>
      (readFields fuel ⟨digits, depth⟩ rest').map fun (fs, rest'') =>
        (.object (Assoc.ofList fs), rest'')
  | _ + 1, lim, ps => readAtom lim ps

/-- Reads items up to the closing bracket; at least one item is there. -/
def readItems : Nat → Limits → List Point → Except Stop (List Value × List Point)
  | 0, _, ps => .error (.form .value ps.length)
  | fuel + 1, lim, ps => do
    let (v, rest) ← readValue fuel lim ps
    match skipBlanks rest with
    | .char ']' :: rest' => pure ([v], rest')
    | .char ',' :: rest' =>
      let (vs, rest'') ← readItems fuel lim (skipBlanks rest')
      pure (v :: vs, rest'')
    | rest' => .error (.form .comma rest'.length)

/-- Reads fields up to the closing brace; at least one field is there. -/
def readFields : Nat → Limits → List Point → Except Stop (List (Name × Value) × List Point)
  | 0, _, ps => .error (.form .name ps.length)
  | fuel + 1, lim, .char '"' :: ps => do
    let (k, rest) ← readText ps
    match skipBlanks rest with
    | .char ':' :: rest' =>
      let (v, rest'') ← readValue fuel lim (skipBlanks rest')
      match skipBlanks rest'' with
      | .char '\x7d' :: rest3 => pure ([(Name.ofPoints k, v)], rest3)
      | .char ',' :: rest3 =>
        let (fs, rest4) ← readFields fuel lim (skipBlanks rest3)
        pure ((Name.ofPoints k, v) :: fs, rest4)
      | rest3 => .error (.form .comma rest3.length)
    | rest' => .error (.form .colon rest'.length)
  | _ + 1, _, ps => .error (.form .name ps.length)

end

/-- Reads a whole text: one value with blanks around it. Two units of fuel per character let every
nested reader take a step of its own. -/
def readAll (lim : Limits) (ps : List Point) : Except Stop Value := do
  let (v, rest) ← readValue (2 * ps.length + 2) lim (skipBlanks ps)
  let left := skipBlanks rest
  if left.isEmpty then pure v else throw (.form .more left.length)

/-- The value that a text describes. -/
def read (lim : Limits) (ps : List Point) : Except Fault Value :=
  (readAll lim ps).mapError (Stop.fault ps)

/-- The value that a text without a byte order mark at its beginning describes. -/
def readUnmarked (lim : Limits) (ps : List Point) : Except Fault Value :=
  if ps.head? = some (.char '\uFEFF') then .error ((Stop.form .mark ps.length).fault ps)
  else read lim ps

end RecordSeal.Json
