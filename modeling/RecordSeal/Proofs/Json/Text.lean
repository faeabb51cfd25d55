import RecordSeal.Json.Printer
import RecordSeal.Json.Reader

set_option autoImplicit false

/-! # Texts read back

Every character is written by a short escape, as it is, or as one or two UTF-16 units, and reading
takes each of these forms back to the character (`textBody_textChar`). A lone surrogate is written
as its unit; it is read back unless it would make a pair with what follows (`Text.Unpaired`). A
whole quoted text is read up to its closing quote and not beyond (`readText_printText`). -/

namespace RecordSeal

namespace Text

/-! ## Pairs of surrogates -/

/-- Whether a code point is the first half of a pair of surrogates. -/
def Point.IsLeading : Point → Prop
  | .char _ => False
  | .lone offset => offset.val < 0x400

/-- Whether a code point is the second half of a pair of surrogates. -/
def Point.IsTrailing : Point → Prop
  | .char _ => False
  | .lone offset => 0x400 ≤ offset.val

/-- Whether no leading surrogate stands before a trailing one, with which it would make a pair. -/
def Unpaired : List Point → Prop
  | [] => True
  | p :: rest => (p.IsLeading → ∀ q ∈ rest.head?, ¬ q.IsTrailing) ∧ Unpaired rest

theorem unpaired_points (cs : List Char) : Unpaired (points cs) := by
  induction cs with
  | nil => exact trivial
  | cons c cs ih => exact ⟨False.elim, ih⟩

end Text

namespace Json

open Text (Point points hex hexDigit Unpaired)

/-! ## Units -/

theorem hexValue?_hexDigit {d : Nat} (h : d < 16) : hexValue? (hexDigit d) = some d := by
  revert d
  decide

theorem unitAfter_hex {n : Nat} (h : n < 0x10000) {rest : List Point} (hr : rest ≠ []) :
    unitAfter (points (hex 4 n) ++ rest) = .ok (n, rest) := by
  have size : 0 < rest.length := List.length_pos_iff.2 hr
  have form : points (hex 4 n) = [.char (hexDigit (n / 16 / 16 / 16 % 16)),
      .char (hexDigit (n / 16 / 16 % 16)), .char (hexDigit (n / 16 % 16)),
      .char (hexDigit (n % 16))] := rfl
  have enough : ¬ (points (hex 4 n) ++ rest).length ≤ 4 := by
    rw [form]
    simp only [List.length_append, List.length_cons, List.length_nil]
    omega
  have value : unit? (points (hex 4 n)) = some n := by
    rw [form]
    simp only [unit?, List.foldl_cons, List.foldl_nil, Point.char?, Option.bind_some,
      hexValue?_hexDigit (Nat.mod_lt _ (by decide : 0 < 16)), Option.map_some]
    congr 1
    omega
  rw [unitAfter, if_neg enough]
  have left : (points (hex 4 n) ++ rest).take 4 = points (hex 4 n) := by rw [form]; rfl
  have right : (points (hex 4 n) ++ rest).drop 4 = rest := by rw [form]; rfl
  rw [left, right, value]

theorem toNat_range (c : Char) : c.toNat < 0xD800 ∨ 0xDFFF < c.toNat ∧ c.toNat < 0x110000 := c.valid

theorem ofCode_toNat (c : Char) : Point.ofCode c.toNat = .char c := by
  have range := toNat_range c
  rw [Point.ofCode, dif_neg (by omega), Char.ofNat_toNat]

theorem ofCode_lone (offset : Fin 0x800) :
    Point.ofCode (Point.lone offset).code = .lone offset := by
  have code : (Point.lone offset).code = 0xD800 + offset.val := rfl
  rw [Point.ofCode, dif_pos (by omega)]
  exact congrArg Point.lone (Fin.ext (by simp [code]))

/-- Whether a text does not begin with the escape of a trailing surrogate. -/
def NoTrailingUnit (ps : List Point) : Prop :=
  ps.take 2 = points ['\\', 'u'] →
    ∃ n rest, unitAfter (ps.drop 2) = .ok (n, rest) ∧ ¬ (0xDC00 ≤ n ∧ n < 0xE000)

/-- A unit is read by itself if it is no leading surrogate or no trailing one follows. -/
theorem numberEscape_unit {n : Nat} (h : n < 0x10000) {rest : List Point} (hr : rest ≠ [])
    (alone : 0xD800 ≤ n → n < 0xDC00 → NoTrailingUnit rest) :
    numberEscape (points (hex 4 n) ++ rest) = .ok (.ofCode n, rest) := by
  simp only [numberEscape, unitAfter_hex h hr, bind, Except.bind]
  split
  · next pair =>
    obtain ⟨low, high, -, escape⟩ := pair
    obtain ⟨unit, rest', read, other⟩ := alone low high escape
    rw [read]
    dsimp only
    rw [if_neg other]
    rfl
  · rfl

/-- A character beyond one unit is read from the two units of its pair. -/
theorem numberEscape_pair {c : Char} (h : 0x10000 ≤ c.toNat) {rest : List Point} (hr : rest ≠ []) :
    numberEscape (points (hex 4 (0xD800 + (c.toNat - 0x10000) / 0x400)) ++
        (points (unitEscape (0xDC00 + (c.toNat - 0x10000) % 0x400)) ++ rest)) =
      .ok (.char c, rest) := by
  have range := toNat_range c
  have size : 0 < rest.length := List.length_pos_iff.2 hr
  obtain ⟨n, hn⟩ : ∃ n, n = c.toNat - 0x10000 := ⟨_, rfl⟩
  rw [← hn]
  have escape : points (unitEscape (0xDC00 + n % 0x400)) =
      .char '\\' :: .char 'u' :: points (hex 4 (0xDC00 + n % 0x400)) := rfl
  have high : 0xD800 ≤ 0xD800 + n / 0x400 ∧ 0xD800 + n / 0x400 < 0xDC00 ∧
      6 < (points (unitEscape (0xDC00 + n % 0x400)) ++ rest).length ∧
      (points (unitEscape (0xDC00 + n % 0x400)) ++ rest).take 2 = points ['\\', 'u'] := by
    refine ⟨by omega, by omega, ?_, by rw [escape]; rfl⟩
    have : (points (unitEscape (0xDC00 + n % 0x400))).length = 6 := rfl
    rw [List.length_append, this]
    omega
  have low : 0xDC00 ≤ 0xDC00 + n % 0x400 ∧ 0xDC00 + n % 0x400 < 0xE000 := by omega
  have code : 0x10000 + (0xD800 + n / 0x400 - 0xD800) * 0x400 + (0xDC00 + n % 0x400 - 0xDC00) =
      c.toNat := by
    omega
  have second : unitAfter ((points (unitEscape (0xDC00 + n % 0x400)) ++ rest).drop 2) =
      .ok (0xDC00 + n % 0x400, rest) := unitAfter_hex (by omega) hr
  simp only [numberEscape, unitAfter_hex (show 0xD800 + n / 0x400 < 0x10000 by omega)
    (List.append_ne_nil_of_right_ne_nil _ hr), bind, Except.bind, if_pos high, second, if_pos low,
    code, ofCode_toNat]
  rfl

/-! ## Characters -/

/-- A character outside the escapes is read as it is. -/
theorem textBody_plain {start fuel : Nat} {c : Char} (quote : c ≠ '"') (slash : c ≠ '\\')
    (printable : 0x20 ≤ c.toNat) (rest : List Point) :
    textBody start (fuel + 1) (.char c :: rest) =
      (textBody start fuel rest).map fun (ps, rest') => (.char c :: ps, rest') := by
  have notControl : ¬ (Point.char c).code < 0x20 := by
    simp only [Point.code]
    omega
  rw [textBody, if_neg notControl]
  · cases textBody start fuel rest <;> rfl
  · simpa using quote
  · simp [slash]
  · simp [slash]
  · simp [slash]

/-- A short escape is read as the character it stands for. -/
theorem textBody_short {start fuel : Nat} {e c : Char} (h : shortEscape? (.char e) = some c)
    (rest : List Point) :
    textBody start (fuel + 1) (.char '\\' :: .char e :: rest) =
      (textBody start fuel rest).map fun (ps, rest') => (.char c :: ps, rest') := by
  have notUnit : e ≠ 'u' := by
    rintro rfl
    cases h
  rw [textBody, h]
  · cases textBody start fuel rest <;> rfl
  · simpa using notUnit

/-- A number escape is read as the point that it gives. -/
theorem textBody_number {start fuel : Nat} {p : Point} {ps rest : List Point}
    (h : numberEscape ps = .ok (p, rest)) :
    textBody start (fuel + 1) (.char '\\' :: .char 'u' :: ps) =
      (textBody start fuel rest).map fun (qs, rest') => (p :: qs, rest') := by
  rw [textBody, h]
  show (textBody start fuel rest >>= fun x => pure (p :: x.1, x.2)) = _
  cases textBody start fuel rest <;> rfl

/-- A character is written by a short escape, as it is, by its unit, or by the pair of its units. -/
theorem textChar_cases (c : Char) :
    (∃ e, textChar c = ['\\', e] ∧ shortEscape? (.char e) = some c) ∨
    (textChar c = [c] ∧ c ≠ '"' ∧ c ≠ '\\' ∧ ' ' ≤ c) ∨
    (textChar c = unitEscape c.toNat ∧ c.toNat < 0x10000) ∨
    (textChar c = unitEscape (0xD800 + (c.toNat - 0x10000) / 0x400) ++
      unitEscape (0xDC00 + (c.toNat - 0x10000) % 0x400) ∧ 0x10000 ≤ c.toNat) := by
  by_cases short : c = '"' ∨ c = '\\' ∨ c = '\n' ∨ c = '\r' ∨ c = '\t' ∨ c = '\x0c' ∨ c = '\x08'
  · left
    rcases short with rfl | rfl | rfl | rfl | rfl | rfl | rfl <;> exact ⟨_, rfl, rfl⟩
  · right
    simp only [not_or] at short
    obtain ⟨quote, slash, newline, returned, tab, feed, back⟩ := short
    unfold textChar
    rw [if_neg quote, if_neg slash, if_neg newline, if_neg returned, if_neg tab, if_neg feed,
      if_neg back]
    by_cases printable : ' ' ≤ c ∧ c ≤ '~'
    · rw [if_pos printable]
      exact .inl ⟨rfl, quote, slash, printable.1⟩
    · rw [if_neg printable]
      by_cases small : c.toNat < 0x10000
      · rw [if_pos small]
        exact .inr (.inl ⟨rfl, small⟩)
      · rw [if_neg small]
        exact .inr (.inr ⟨rfl, Nat.le_of_not_lt small⟩)

theorem textBody_textChar {start fuel : Nat} (c : Char) {rest : List Point} (hr : rest ≠ []) :
    textBody start (fuel + 1) (points (textChar c) ++ rest) =
      (textBody start fuel rest).map fun (ps, rest') => (.char c :: ps, rest') := by
  rcases textChar_cases c with
    ⟨e, form, short⟩ | ⟨form, quote, slash, printable⟩ | ⟨form, small⟩ | ⟨form, large⟩
  · rw [form]
    exact textBody_short short rest
  · rw [form]
    exact textBody_plain quote slash printable rest
  · have range := toNat_range c
    have unit := numberEscape_unit small hr fun low high => by omega
    rw [ofCode_toNat] at unit
    rw [form]
    exact textBody_number unit
  · have pair := numberEscape_pair large hr
    rw [form, ← textBody_number pair]
    simp [unitEscape, points]

theorem textPoint_ne_nil (p : Point) : textPoint p ≠ [] := by
  cases p with
  | lone offset => exact List.cons_ne_nil _ _
  | char c =>
    rw [textPoint]
    rcases textChar_cases c with ⟨e, form, -⟩ | ⟨form, -⟩ | ⟨form, -⟩ | ⟨form, -⟩ <;>
      simp [form, unitEscape]

/-! ## Texts -/

/-- A text that begins with no trailing surrogate is not written as the escape of one. -/
theorem noTrailingUnit_points {ps : List Point} (first : ∀ q ∈ ps.head?, ¬ q.IsTrailing)
    (rest : List Point) :
    NoTrailingUnit (points (ps.flatMap textPoint) ++ .char '"' :: rest) := by
  intro escape
  cases ps with
  | nil => simp [points] at escape
  | cons p ps =>
    obtain ⟨tail, some, form⟩ : ∃ tail : List Point, tail ≠ [] ∧
        points ((p :: ps).flatMap textPoint) ++ .char '"' :: rest =
          points (textPoint p) ++ tail :=
      ⟨points (ps.flatMap textPoint) ++ .char '"' :: rest, by simp, by simp [points]⟩
    rw [form] at escape ⊢
    have unit {n : Nat} (h : n < 0x10000) (more : List Point) (hm : more ≠ []) :
        unitAfter ((points (unitEscape n) ++ more).drop 2) = .ok (n, more) := unitAfter_hex h hm
    cases p with
    | lone offset =>
      have leading : offset.val < 0x400 := Nat.lt_of_not_le (first _ rfl)
      have code : (Point.lone offset).code = 0xD800 + offset.val := rfl
      exact ⟨_, _, unit (by omega) tail some, by omega⟩
    | char c =>
      have range := toNat_range c
      rcases textChar_cases c with
        ⟨e, written, short⟩ | ⟨written, -, slash, -⟩ | ⟨written, small⟩ | ⟨written, large⟩ <;>
        simp only [textPoint, written] at escape ⊢
      · -- No short escape is written with the letter of units.
        obtain rfl : e = 'u' := by simpa [points] using escape
        cases short
      · have first := congrArg List.head? escape
        simp [points, slash] at first
      · exact ⟨_, _, unit small tail some, by omega⟩
      · have split (high low : List Char) :
            points (high ++ low) ++ tail = points high ++ (points low ++ tail) := by
          simp [points]
        rw [split]
        exact ⟨_, _, unit (by omega) _ (by simp [some]), by omega⟩

/-- The code points of a text are read back up to its closing quote. -/
theorem textBody_flatMap {start fuel : Nat} {ps : List Point} (unpaired : Unpaired ps)
    (rest : List Point) (enough : ps.length < fuel) :
    textBody start fuel (points (ps.flatMap textPoint) ++ .char '"' :: rest) = .ok (ps, rest) := by
  induction ps generalizing fuel with
  | nil =>
    obtain ⟨fuel, rfl⟩ := Nat.exists_eq_succ_of_ne_zero (Nat.ne_of_gt enough)
    rfl
  | cons p ps ih =>
    obtain ⟨first, others⟩ := unpaired
    obtain ⟨fuel, rfl⟩ := Nat.exists_eq_succ_of_ne_zero (Nat.ne_zero_of_lt enough)
    have split : points ((p :: ps).flatMap textPoint) ++ .char '"' :: rest =
        points (textPoint p) ++ (points (ps.flatMap textPoint) ++ .char '"' :: rest) := by
      simp [points]
    have some : points (ps.flatMap textPoint) ++ .char '"' :: rest ≠ [] :=
      List.append_ne_nil_of_right_ne_nil _ (List.cons_ne_nil _ _)
    have read := @ih fuel others (by simpa using enough)
    rw [split]
    cases p with
    | char c =>
      rw [textPoint, textBody_textChar c some, read]
      rfl
    | lone offset =>
      have code : (Point.lone offset).code = 0xD800 + offset.val := rfl
      have unit := numberEscape_unit (n := (Point.lone offset).code) (by omega) some fun _ high =>
        noTrailingUnit_points (first (show offset.val < 0x400 by omega)) rest
      rw [ofCode_lone] at unit
      exact (textBody_number unit).trans (by rw [read]; rfl)

theorem length_le_length_flatMap (ps : List Point) :
    ps.length ≤ (ps.flatMap textPoint).length := by
  induction ps with
  | nil => exact Nat.le_refl _
  | cons p ps ih =>
    have := List.length_pos_iff.2 (textPoint_ne_nil p)
    simp only [List.flatMap_cons, List.length_append, List.length_cons]
    omega

/-- A text is read back from its quoted form, and what follows it is left. -/
theorem readText_printText {ps : List Point} (unpaired : Unpaired ps) (rest : List Point) :
    readText (points (ps.flatMap textPoint) ++ .char '"' :: rest) = .ok (ps, rest) := by
  apply textBody_flatMap unpaired
  have := length_le_length_flatMap ps
  simp only [points, List.length_append, List.length_map, List.length_cons]
  omega

end Json

end RecordSeal
