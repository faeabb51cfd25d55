import RecordSeal.Text.Quoted

set_option autoImplicit false

/-! # Text as bytes

Text is written in UTF-8. Reading refuses ill-formed bytes and says which ones and why; the bytes
named are the longest beginning of a well-formed sequence. `ofBytes` takes lone surrogates as they
are and recognises the wider encodings by a mark or by where zero bytes stand. -/

namespace RecordSeal.Text

/-- The UTF-8 bytes of a text. -/
def utf8 (cs : List Char) : List UInt8 := cs.flatMap String.utf8EncodeChar

/-- Bytes `start` to `stop`, the last one excluded, that an encoding cannot read. -/
structure DecodeFault where
  encoding : String
  first : UInt8
  start : Nat
  stop : Nat
  reason : String
  deriving DecidableEq

/-- The wording of a decoding fault. -/
def DecodeFault.message (f : DecodeFault) : String :=
  if f.stop = f.start + 1 then
    let byte := String.ofList (hex 2 f.first.toNat)
    s!"'{f.encoding}' codec can't decode byte 0x{byte} in position {f.start}: {f.reason}"
  else
    s!"'{f.encoding}' codec can't decode bytes in position {f.start}-{f.stop - 1}: {f.reason}"

/-- A fault told without its particular reason. -/
def DecodeFault.brief (f : DecodeFault) : DecodeFault := { f with reason := "invalid utf-8" }

/-! ## UTF-8 -/

/-- The second bytes that may follow a leading byte. -/
def secondRange (lead : UInt8) : UInt8 × UInt8 :=
  -- Overlong forms, surrogates and numbers beyond the last code point are kept out here.
  if lead = 0xE0 then (0xA0, 0xBF)
  else if lead = 0xED then (0x80, 0x9F)
  else if lead = 0xF0 then (0x90, 0xBF)
  else if lead = 0xF4 then (0x80, 0x8F)
  else (0x80, 0xBF)

/-- The number of bytes that follow a leading byte. -/
def followers (lead : UInt8) : Option Nat :=
  if lead < 0x80 then some 0
  else if lead < 0xC2 then none
  else if lead < 0xE0 then some 1
  else if lead < 0xF0 then some 2
  else if lead < 0xF5 then some 3
  else none

/-- How many of the next `wanted` bytes continue a sequence; the first one must lie in a range. -/
def continuing : Nat → UInt8 × UInt8 → List UInt8 → Nat
  | 0, _, _ => 0
  | _, _, [] => 0
  | wanted + 1, (lo, hi), b :: rest =>
    if lo ≤ b && b ≤ hi then 1 + continuing wanted (0x80, 0xBF) rest else 0

/-- The code point of a leading byte and the bytes that follow it. -/
def codePoint (lead : UInt8) (rest : List UInt8) : Nat :=
  let head := match rest.length with
    | 0 => lead.toNat
    | 1 => lead.toNat % 32
    | 2 => lead.toNat % 16
    | _ => lead.toNat % 8
  rest.foldl (fun n b => 64 * n + b.toNat % 64) head

/-- The code point that bytes begin with and how many bytes follow the first one, or how many bytes
cannot be read and why. -/
def utf8Next (lead : UInt8) (rest : List UInt8) : Except (Nat × String) (Nat × Nat) :=
  match followers lead with
  | none => .error (1, "invalid start byte")
  | some wanted =>
    let got := continuing wanted (secondRange lead) rest
    if got = wanted then .ok (codePoint lead (rest.take wanted), wanted)
    else if rest.length = got then .error (1 + got, "unexpected end of data")
    else .error (1 + got, "invalid continuation byte")

/-- Reads UTF-8; `pos` is the position of the first byte, and the fuel is the number of bytes. -/
def utf8Loop : Nat → Nat → List UInt8 → Except DecodeFault (List Char)
  | _, _, [] => .ok []
  | 0, _, _ => .ok []
  | fuel + 1, pos, lead :: rest =>
    match utf8Next lead rest with
    | .ok (code, n) => (utf8Loop fuel (pos + 1 + n) (rest.drop n)).map (Char.ofNat code :: ·)
    | .error (n, reason) => .error ⟨"utf-8", lead, pos, pos + n, reason⟩

/-- Reads UTF-8. -/
def ofUtf8 (bs : List UInt8) : Except DecodeFault (List Char) := utf8Loop bs.length 0 bs

/-! ## Lone surrogates -/

/-- Whether two bytes after a leading one spell a surrogate, in the way of other code points. -/
def spellSurrogate (lead : UInt8) : List UInt8 → Bool
  | b :: c :: _ => lead = 0xED && 0xA0 ≤ b && b ≤ 0xBF && 0x80 ≤ c && c ≤ 0xBF
  | _ => false

/-- Lone surrogates from `start` to `stop`, the last one excluded, that UTF-8 has no bytes for. -/
structure EncodeFault where
  first : Point
  start : Nat
  stop : Nat
  deriving DecidableEq

/-- The wording of an encoding fault. -/
def EncodeFault.message (f : EncodeFault) : String :=
  if f.stop = f.start + 1 then
    let shown := String.ofList (quotedPoints [f.first])
    s!"'utf-8' codec can't encode character {shown} in position {f.start}: surrogates not allowed"
  else
    s!"'utf-8' codec can't encode characters in position {f.start}-{f.stop - 1}: " ++
      "surrogates not allowed"

/-- The UTF-8 bytes of a text that holds no lone surrogate. -/
def utf8OfPoints (ps : List Point) : Except EncodeFault (List UInt8) :=
  match chars? ps with
  | some cs => .ok (utf8 cs)
  | none =>
    let rest := ps.dropWhile fun p => p.char?.isSome
    let start := ps.length - rest.length
    let count := (rest.takeWhile fun p => p.char?.isNone).length
    .error ⟨rest.headD (.lone 0), start, start + count⟩

/-- Reads UTF-8 that may spell lone surrogates. -/
def utf8PointLoop : Nat → Nat → List UInt8 → Except DecodeFault (List Point)
  | _, _, [] => .ok []
  | 0, _, _ => .ok []
  | fuel + 1, pos, lead :: rest =>
    if spellSurrogate lead rest then
      (utf8PointLoop fuel (pos + 3) (rest.drop 2)).map (.ofCode (codePoint lead (rest.take 2)) :: ·)
    else
      match utf8Next lead rest with
      | .ok (code, n) => (utf8PointLoop fuel (pos + 1 + n) (rest.drop n)).map (.ofCode code :: ·)
      | .error (n, reason) => .error ⟨"utf-8", lead, pos, pos + n, reason⟩

/-! ## Wider encodings -/

/-- An encoding that bytes of text may use. -/
inductive Encoding where
  | utf8
  | utf8Marked
  | utf16 (big marked : Bool)
  | utf32 (big marked : Bool)
  deriving DecidableEq

/-- Tells the encoding from a mark at the beginning, else from the places of zero bytes. -/
def Encoding.detect : List UInt8 → Encoding
  -- The mark of the wider encoding begins with that of the narrower one, so it goes first.
  | 0x00 :: 0x00 :: 0xFE :: 0xFF :: _ => .utf32 true true
  | 0xFF :: 0xFE :: 0x00 :: 0x00 :: _ => .utf32 false true
  | 0xFE :: 0xFF :: _ => .utf16 true true
  | 0xFF :: 0xFE :: _ => .utf16 false true
  | 0xEF :: 0xBB :: 0xBF :: _ => .utf8Marked
  | a :: b :: c :: d :: _ =>
    if a = 0 then if b = 0 then .utf32 true false else .utf16 true false
    else if b = 0 then if c = 0 ∧ d = 0 then .utf32 false false else .utf16 false false
    else .utf8
  | [a, b] => if a = 0 then .utf16 true false else if b = 0 then .utf16 false false else .utf8
  | _ => .utf8

/-- The number that bytes stand for in an order. -/
def wordOf (big : Bool) (bs : List UInt8) : Nat :=
  (if big then bs else bs.reverse).foldl (fun n b => 256 * n + b.toNat) 0

/-- Reads two-byte units, joining pairs of surrogates. -/
def utf16Loop (big : Bool) (name : String) : Nat → Nat → List UInt8 →
    Except DecodeFault (List Point)
  | _, _, [] => .ok []
  | 0, _, _ => .ok []
  | _, pos, [b] => .error ⟨name, b, pos, pos + 1, "truncated data"⟩
  | fuel + 1, pos, a :: b :: rest =>
    let u := wordOf big [a, b]
    let low := wordOf big (rest.take 2)
    if 0xD800 ≤ u && u < 0xDC00 && 2 ≤ rest.length && 0xDC00 ≤ low && low < 0xE000 then
      (utf16Loop big name fuel (pos + 4) (rest.drop 2)).map
        (.ofCode (0x10000 + (u - 0xD800) * 0x400 + (low - 0xDC00)) :: ·)
    else (utf16Loop big name fuel (pos + 2) rest).map (.ofCode u :: ·)

/-- Reads four-byte units. -/
def utf32Loop (big : Bool) (name : String) : Nat → Nat → List UInt8 →
    Except DecodeFault (List Point)
  | _, _, [] => .ok []
  | 0, _, _ => .ok []
  | fuel + 1, pos, b :: rest =>
    if rest.length < 3 then
      .error ⟨name, b, pos, pos + 1 + rest.length, "truncated data"⟩
    else
      let u := wordOf big (b :: rest.take 3)
      if 0x110000 ≤ u then .error ⟨name, b, pos, pos + 4, "code point not in range(0x110000)"⟩
      else (utf32Loop big name fuel (pos + 4) (rest.drop 3)).map (.ofCode u :: ·)

/-- Reads bytes in the encoding they announce. -/
def ofBytes (bs : List UInt8) : Except DecodeFault (List Point) :=
  let order (big : Bool) := if big then "be" else "le"
  match Encoding.detect bs with
  | .utf8 => utf8PointLoop bs.length 0 bs
  | .utf8Marked => utf8PointLoop bs.length 0 (bs.drop 3)
  | .utf16 big marked =>
    let skip := if marked then 2 else 0
    utf16Loop big s!"utf-16-{order big}" bs.length skip (bs.drop skip)
  | .utf32 big marked =>
    let skip := if marked then 4 else 0
    utf32Loop big s!"utf-32-{order big}" bs.length skip (bs.drop skip)

end RecordSeal.Text
