import RecordSeal.Json.Printer
import RecordSeal.Json.Reader
import RecordSeal.Proofs.Number.Shortest

set_option autoImplicit false

/-! # Numbers read back

A whole number is written in digits that stand for it (`toNat_ofNat`), and a floating-point number
in one of four layouts of its shortest digits. Whatever the layout, reading takes the text to a
decimal of the same value, so the number is read back and nothing that follows it is taken
(`readAtom_int`, `readAtom_float`). -/

namespace RecordSeal

open Text (Point points)

/-! ## Digits -/

namespace Decimal

theorem isDigit_digitChar {d : Nat} (h : d < 10) : isDigit (digitChar d) = true := by
  revert d
  decide

theorem toNat_digitChar {d : Nat} (h : d < 10) : (digitChar d).toNat - 48 = d := by
  revert d
  decide

theorem digitChar_ne_zero {d : Nat} (h : d < 10) (hd : d ≠ 0) : digitChar d ≠ '0' := by
  revert d
  decide

theorem isDigit_of_mem_ofNat (n : Nat) : ∀ c ∈ ofNat n, isDigit c = true := by
  fun_induction ofNat n with
  | case1 n h =>
    intro c hc
    rw [List.mem_singleton.1 hc]
    exact isDigit_digitChar h
  | case2 n h ih =>
    intro c hc
    rcases List.mem_append.1 hc with hc | hc
    · exact ih c hc
    · rw [List.mem_singleton.1 hc]
      exact isDigit_digitChar (Nat.mod_lt _ (by decide))

/-- The number of digits before and after: those before count by the power of ten. -/
theorem toNat_append (cs ds : List Char) :
    toNat (cs ++ ds) = toNat cs * 10 ^ ds.length + toNat ds := by
  have shift (a : Nat) : ds.foldl (fun n c => 10 * n + (c.toNat - 48)) a =
      a * 10 ^ ds.length + toNat ds := by
    induction ds generalizing a with
    | nil => simp [toNat]
    | cons d ds ih =>
      have one := ih (10 * 0 + (d.toNat - 48))
      simp only [toNat, List.foldl_cons, List.length_cons] at *
      rw [ih, one]
      ring
  rw [toNat, List.foldl_append, shift]
  rfl

/-- Digits stand for the number that they were written for. -/
theorem toNat_ofNat (n : Nat) : toNat (ofNat n) = n := by
  fun_induction ofNat n with
  | case1 n h => simp [toNat, toNat_digitChar h]
  | case2 n h ih =>
    have last : toNat [digitChar (n % 10)] = n % 10 := by
      simp [toNat, toNat_digitChar (Nat.mod_lt n (by decide))]
    rw [toNat_append, ih, last]
    simp only [List.length_singleton]
    omega

theorem toNat_zeros (k : Nat) : toNat (List.replicate k '0') = 0 := by
  induction k with
  | zero => rfl
  | succ k ih => simpa [toNat, List.replicate_succ] using ih

theorem toNat_padded (width n : Nat) : toNat (padded width n) = n := by
  simp only [padded, toNat_append, toNat_zeros, toNat_ofNat]
  omega

theorem isDigit_of_mem_padded (width n : Nat) : ∀ c ∈ padded width n, isDigit c = true := by
  intro c hc
  rcases List.mem_append.1 hc with hc | hc
  · rw [List.eq_of_mem_replicate hc]
    rfl
  · exact isDigit_of_mem_ofNat n c hc

/-- Digits without leading zeros: a zero alone, or digits that do not begin with one. -/
structure IsWhole (ds : List Char) : Prop where
  digits : ∀ c ∈ ds, isDigit c = true
  leading : ds = ['0'] ∨ ∃ c cs, ds = c :: cs ∧ c ≠ '0'

theorem leading_ofNat {n : Nat} (h : 0 < n) : ∃ c cs, ofNat n = c :: cs ∧ c ≠ '0' := by
  fun_induction ofNat n with
  | case1 n small => exact ⟨_, _, rfl, digitChar_ne_zero small (by omega)⟩
  | case2 n large ih =>
    obtain ⟨c, cs, e, hc⟩ := ih (by omega)
    exact ⟨c, cs ++ [digitChar (n % 10)], by rw [e]; rfl, hc⟩

theorem isWhole_ofNat (n : Nat) : IsWhole (ofNat n) := by
  refine ⟨isDigit_of_mem_ofNat n, ?_⟩
  rcases Nat.eq_zero_or_pos n with rfl | h
  · left
    rw [ofNat]
    rfl
  · exact Or.inr (leading_ofNat h)

end Decimal

namespace Json

/-! ## Parts of numbers -/

/-- What cannot continue a value: it is empty or begins with a delimiter. -/
def Stops (rest : List Point) : Prop :=
  ∀ p ∈ rest.head?, p = .char ',' ∨ p = .char ']' ∨ p = .char '\x7d'

theorem Stops.cases {rest : List Point} (h : Stops rest) :
    rest = [] ∨ ∃ more, rest = .char ',' :: more ∨ rest = .char ']' :: more ∨
      rest = .char '\x7d' :: more := by
  cases rest with
  | nil => exact Or.inl rfl
  | cons p more =>
    rcases h p rfl with rfl | rfl | rfl
    · exact Or.inr ⟨more, Or.inl rfl⟩
    · exact Or.inr ⟨more, Or.inr (Or.inl rfl)⟩
    · exact Or.inr ⟨more, Or.inr (Or.inr rfl)⟩

theorem Stops.spanDigits {rest : List Point} (h : Stops rest) : spanDigits rest = ([], rest) := by
  rcases h.cases with rfl | ⟨more, rfl | rfl | rfl⟩ <;> rfl

theorem Stops.fractionPart {rest : List Point} (h : Stops rest) :
    fractionPart rest = ([], rest) := by
  rcases h.cases with rfl | ⟨more, rfl | rfl | rfl⟩ <;> rfl

theorem Stops.exponentPart {rest : List Point} (h : Stops rest) :
    exponentPart rest = (none, rest) := by
  rcases h.cases with rfl | ⟨more, rfl | rfl | rfl⟩ <;> rfl

theorem spanDigits_points {ds : List Char} (hd : ∀ c ∈ ds, Decimal.isDigit c = true)
    {rest : List Point} (hr : spanDigits rest = ([], rest)) :
    spanDigits (points ds ++ rest) = (ds, rest) := by
  induction ds with
  | nil => exact hr
  | cons d ds ih =>
    have tail := ih fun c hc => hd c (List.mem_cons_of_mem d hc)
    show spanDigits (.char d :: (points ds ++ rest)) = _
    rw [spanDigits, if_pos (hd d (List.mem_cons_self ..)), tail]

theorem wholePart?_points {ds : List Char} (h : Decimal.IsWhole ds) {rest : List Point}
    (hr : spanDigits rest = ([], rest)) :
    wholePart? (points ds ++ rest) = some (ds, rest) := by
  rcases h.leading with rfl | ⟨c, cs, rfl, hc⟩
  · rfl
  · have all := spanDigits_points h.digits hr
    have digit := h.digits c (List.mem_cons_self ..)
    show wholePart? (.char c :: (points cs ++ rest)) = _
    rw [wholePart?, if_pos digit]
    · exact congrArg some all
    · simpa using hc

theorem fractionPart_points {ds : List Char} (hd : ∀ c ∈ ds, Decimal.isDigit c = true)
    (some : ds ≠ []) {rest : List Point} (hr : spanDigits rest = ([], rest)) :
    fractionPart (.char '.' :: (points ds ++ rest)) = (ds, rest) := by
  simp only [fractionPart, spanDigits_points hd hr]
  rw [if_neg (by simpa using some)]

theorem exponentPart_points {ds : List Char} (hd : ∀ c ∈ ds, Decimal.isDigit c = true)
    (some : ds ≠ []) {rest : List Point} (hr : spanDigits rest = ([], rest)) (negative : Bool) :
    exponentPart (.char 'e' :: .char (if negative then '-' else '+') :: (points ds ++ rest)) =
      (Option.some ((if negative then -1 else 1) * (Decimal.toNat ds : Int)), rest) := by
  have notEmpty : ds.isEmpty = false := by simpa using some
  cases negative <;> simp [exponentPart, spanDigits_points hd hr, notEmpty]

/-- A number with a fraction or an exponent is read as the decimal that its parts give. -/
theorem numberAfter_float {lim : Limits} {negative : Bool} {whole fraction : List Char}
    {exponent : Option Int} {rest rest' rest'' : List Point}
    (hf : fractionPart rest = (fraction, rest')) (he : exponentPart rest' = (exponent, rest''))
    (some : fraction ≠ [] ∨ exponent ≠ none) :
    numberAfter lim negative whole rest =
      .ok (.float (Binary64.ofDecimal negative (Decimal.toNat (whole ++ fraction))
        (exponent.getD 0 - fraction.length)), rest'') := by
  have notWhole : (fraction.isEmpty && exponent.isNone) = false := by
    cases fraction <;> cases exponent <;> simp_all
  simp only [numberAfter, hf, he, notWhole]
  rfl

/-! ## Numbers -/

/-- No name begins with a digit, nor with a minus sign and a digit. -/
theorem find?_names_digit {c : Char} (hc : Decimal.isDigit c = true) (negative : Bool)
    (ps : List Point) :
    names.find? (fun e => e.1.isPrefixOf
      (if negative then .char '-' :: .char c :: ps else .char c :: ps)) = none := by
  have other (d : Char) (hd : Decimal.isDigit d = false) : d ≠ c := by
    rintro rfl
    simp [hc] at hd
  cases negative
  · simp [names, points, other 'n' rfl, other 't' rfl, other 'f' rfl, other 'N' rfl, other 'I' rfl,
      other '-' rfl]
  · simp [names, points, other 'I' rfl]

/-- The sign of a number is taken before its digits. -/
theorem readNumber_signed {lim : Limits} {c : Char} (hc : c ≠ '-') (negative : Bool)
    {ps rest : List Point} {ds : List Char} (whole : wholePart? (.char c :: ps) = some (ds, rest)) :
    readNumber lim (if negative then .char '-' :: .char c :: ps else .char c :: ps) =
      numberAfter lim negative ds rest := by
  have sign : takeMinus (if negative then .char '-' :: .char c :: ps else .char c :: ps) =
      (negative, .char c :: ps) := by
    cases negative <;> simp [takeMinus, hc]
  rw [readNumber, sign]
  simp only [whole]

/-- A number is read by its sign and then by the digits before its point. -/
theorem readAtom_whole {lim : Limits} {ds : List Char} (h : Decimal.IsWhole ds) (negative : Bool)
    {rest : List Point} (hr : spanDigits rest = ([], rest)) :
    readAtom lim (points (if negative then '-' :: ds else ds) ++ rest) =
      numberAfter lim negative ds rest := by
  have whole := wholePart?_points h hr
  obtain ⟨c, cs, rfl⟩ : ∃ c cs, ds = c :: cs := by
    rcases h.leading with rfl | ⟨c, cs, rfl, -⟩ <;> exact ⟨_, _, rfl⟩
  have digit := h.digits c (List.mem_cons_self ..)
  have notMinus : c ≠ '-' := by
    rintro rfl
    cases digit
  have form : points (if negative then '-' :: c :: cs else c :: cs) ++ rest =
      if negative then .char '-' :: .char c :: (points cs ++ rest)
      else .char c :: (points cs ++ rest) := by
    cases negative <;> rfl
  rw [form, readAtom, find?_names_digit digit]
  exact readNumber_signed notMinus negative whole

theorem readAtom_int {lim : Limits} {n : Int} (fits : numberObstacle? lim.digits n = none)
    {rest : List Point} (hr : Stops rest) :
    readAtom lim (points (Decimal.ofInt n) ++ rest) = .ok (.int n, rest) := by
  have short : ¬ lim.digits < (Decimal.ofNat n.natAbs).length := by
    intro long
    simp [numberObstacle?, long] at fits
  have form : Decimal.ofInt n =
      if decide (n < 0) then '-' :: Decimal.ofNat n.natAbs else Decimal.ofNat n.natAbs := by
    simp [Decimal.ofInt]
  rw [form, readAtom_whole (Decimal.isWhole_ofNat _) _ hr.spanDigits]
  simp only [numberAfter, hr.fractionPart, hr.exponentPart, Decimal.toNat_ofNat, if_neg short]
  show Except.ok (Value.int _, rest) = _
  congr 3
  by_cases h : n < 0
  · simp only [h, decide_true, if_true]
    omega
  · simp only [h, decide_false]
    exact Int.natAbs_of_nonneg (Int.not_lt.1 h)

/-! ## Floating-point numbers -/

/-- The text, up to its sign, is read as a decimal of the value `d * 10 ^ k`. -/
def IsDecimal (text : List Char) (d : Nat) (k : Int) : Prop :=
  ∀ (lim : Limits) (negative : Bool) (rest : List Point), Stops rest →
    ∃ (d' : Nat) (e : Int), (d' : ℚ) * 10 ^ e = d * 10 ^ k ∧
      readAtom lim (points (if negative then '-' :: text else text) ++ rest) =
        .ok (.float (Binary64.ofDecimal negative d' e), rest)

/-- A text of digits, a fraction and an exponent is read as the decimal that these give. -/
theorem isDecimal_of_parts {whole tail : List Char} (h : Decimal.IsWhole whole)
    (fraction : List Char) (exponent : Option Int) (some : fraction ≠ [] ∨ exponent ≠ none)
    (parts : ∀ rest, Stops rest → spanDigits (points tail ++ rest) = ([], points tail ++ rest) ∧
      ∃ rest', fractionPart (points tail ++ rest) = (fraction, rest') ∧
        exponentPart rest' = (exponent, rest)) {d : Nat} {k : Int}
    (value : (Decimal.toNat (whole ++ fraction) : ℚ) * 10 ^ (exponent.getD 0 - fraction.length) =
      d * 10 ^ k) : IsDecimal (whole ++ tail) d k := by
  intro lim negative rest hr
  obtain ⟨stop, rest', hf, he⟩ := parts rest hr
  refine ⟨_, _, value, ?_⟩
  have split : points (if negative then '-' :: (whole ++ tail) else whole ++ tail) ++ rest =
      points (if negative then '-' :: whole else whole) ++ (points tail ++ rest) := by
    cases negative <;> simp [points]
  rw [split, readAtom_whole h negative stop]
  exact numberAfter_float hf he some

/-- A text of digits and a fraction is read as the decimal that these give. -/
theorem isDecimal_of_fraction {whole fraction : List Char} (h : Decimal.IsWhole whole)
    (digits : ∀ c ∈ fraction, Decimal.isDigit c = true) (some : fraction ≠ []) {d : Nat} {k : Int}
    (value : (Decimal.toNat (whole ++ fraction) : ℚ) * 10 ^ (-(fraction.length : Int)) =
      d * 10 ^ k) : IsDecimal (whole ++ '.' :: fraction) d k := by
  refine isDecimal_of_parts h fraction none (Or.inl some) ?_ ?_
  · intro rest hr
    exact ⟨rfl, rest, fractionPart_points digits some hr.spanDigits, hr.exponentPart⟩
  · rwa [Option.getD_none, zero_sub]

theorem exponentPart_padded (e : Int) (width : Nat) {rest : List Point} (hr : Stops rest) :
    exponentPart (points ('e' :: (if e < 0 then '-' else '+') ::
      Decimal.padded width e.natAbs) ++ rest) = (some e, rest) := by
  have some : Decimal.padded width e.natAbs ≠ [] := by
    have := (Decimal.isWhole_ofNat e.natAbs).leading
    rw [Decimal.padded]
    apply List.append_ne_nil_of_right_ne_nil
    rcases this with h | ⟨c, cs, h, -⟩ <;> simp [h]
  have read := exponentPart_points (Decimal.isDigit_of_mem_padded width e.natAbs) some
    hr.spanDigits (decide (e < 0))
  rw [Decimal.toNat_padded] at read
  have value : (if decide (e < 0) = true then -1 else 1) * (e.natAbs : Int) = e := by
    split_ifs with h
    · have := of_decide_eq_true h
      omega
    · have := of_decide_eq_false (Bool.eq_false_of_not_eq_true h)
      omega
  rw [value] at read
  simpa [points] using read

section

variable {ds : List Char} {d : Nat} (digits : ∀ c ∈ ds, Decimal.isDigit c = true)
  (value : Decimal.toNat ds = d) {k : Int}

include digits value

theorem isDecimal_of_leadingZeros (some : ds ≠ []) (small : ds.length + k ≤ 0) :
    IsDecimal ('0' :: '.' :: (List.replicate (-(ds.length + k)).toNat '0' ++ ds)) d k := by
  have zero : Decimal.IsWhole ['0'] := ⟨by simp [Decimal.isDigit], Or.inl rfl⟩
  refine isDecimal_of_fraction zero ?_ ?_ ?_
  · intro c hc
    rcases List.mem_append.1 hc with hc | hc
    · rw [List.eq_of_mem_replicate hc]
      rfl
    · exact digits c hc
  · exact List.append_ne_nil_of_right_ne_nil _ some
  · have zeros := Decimal.toNat_zeros (-(ds.length + k)).toNat
    rw [Decimal.toNat_append, Decimal.toNat_append, zeros, value]
    simp only [List.length_append, List.length_replicate]
    congr 2
    · simp [Decimal.toNat]
    · omega

variable {c : Char} {cs : List Char} (first : ds = c :: cs) (hc : c ≠ '0')

include first hc

theorem isDecimal_of_trailingZeros (n : Nat) :
    IsDecimal (ds ++ List.replicate n '0' ++ ['.', '0']) d n := by
  have zeros : ∀ c ∈ ds ++ List.replicate n '0', Decimal.isDigit c = true := by
    intro c hc
    rcases List.mem_append.1 hc with hc | hc
    · exact digits c hc
    · rw [List.eq_of_mem_replicate hc]
      rfl
  refine isDecimal_of_fraction ⟨zeros, Or.inr ?_⟩ (by simp [Decimal.isDigit]) (by simp) ?_
  · exact ⟨c, cs ++ List.replicate n '0', by rw [first, List.cons_append], hc⟩
  · rw [Decimal.toNat_append, Decimal.toNat_append, Decimal.toNat_zeros, value]
    have tenth : Decimal.toNat ['0'] = 0 := rfl
    simp only [List.length_replicate, List.length_singleton, tenth, zpow_natCast]
    push_cast
    field_simp
    ring

theorem isDecimal_of_pointAmong (after : 0 < ds.length + k) (before : k < 0) :
    IsDecimal (ds.take (ds.length + k).toNat ++ '.' :: ds.drop (ds.length + k).toNat) d k := by
  have point : 0 < (ds.length + k).toNat := by omega
  refine isDecimal_of_fraction ⟨?_, Or.inr ?_⟩ ?_ ?_ ?_
  · intro c hc
    exact digits c (List.mem_of_mem_take hc)
  · obtain ⟨n, hn⟩ := Nat.exists_eq_succ_of_ne_zero point.ne'
    exact ⟨c, cs.take n, by rw [hn, first, List.take_succ_cons], hc⟩
  · intro c hc
    exact digits c (List.mem_of_mem_drop hc)
  · rw [Ne, List.drop_eq_nil_iff]
    omega
  · rw [List.take_append_drop, value, List.length_drop]
    congr 2
    omega

theorem isDecimal_of_exponent {e : Int} (he : ds.length + k - 1 = e) (width : Nat) :
    IsDecimal (c :: (if cs.isEmpty then [] else '.' :: cs) ++
      'e' :: (if e < 0 then '-' else '+') :: Decimal.padded width e.natAbs) d k := by
  have lead : Decimal.IsWhole [c] :=
    ⟨by simpa using digits c (by simp [first]), Or.inr ⟨c, [], rfl, hc⟩⟩
  subst first
  cases cs with
  | nil =>
    refine isDecimal_of_parts lead [] (some e) (Or.inr (by simp)) ?_ ?_
    · intro rest hr
      exact ⟨rfl, _, rfl, exponentPart_padded e width hr⟩
    · simp only [List.append_nil, value, Option.getD_some, List.length_nil]
      congr 2
      simp only [List.length_singleton] at he
      omega
  | cons c' cs =>
    refine isDecimal_of_parts lead (c' :: cs) (some e) (Or.inl (by simp)) ?_ ?_
    · intro rest hr
      let mark := points ('e' :: (if e < 0 then '-' else '+') ::
        Decimal.padded width e.natAbs) ++ rest
      have exponent : exponentPart mark = (some e, rest) := exponentPart_padded e width hr
      have fraction :
          fractionPart (.char '.' :: (points (c' :: cs) ++ mark)) = (c' :: cs, mark) :=
        fractionPart_points (fun d hd => digits d (List.mem_cons_of_mem c hd))
          (List.cons_ne_nil c' cs) rfl
      refine ⟨rfl, mark, ?_, exponent⟩
      rw [← fraction]
      simp [points, mark]
    · rw [List.singleton_append, value, Option.getD_some]
      congr 2
      simp only [List.length_cons] at he ⊢
      push_cast at he ⊢
      omega

end

/-- Whatever the layout, digits are read as a decimal of their value. -/
theorem isDecimal_layDigits (lay : Binary64.Layout) {d : Nat} (hd : 0 < d) (k : Int) :
    IsDecimal (Binary64.layDigits lay (Decimal.ofNat d) ((Decimal.ofNat d).length + k)) d k := by
  have value := Decimal.toNat_ofNat d
  have digits := Decimal.isDigit_of_mem_ofNat d
  obtain ⟨c, cs, first, hc⟩ := Decimal.leading_ofNat hd
  generalize Decimal.ofNat d = ds at *
  unfold Binary64.layDigits
  split_ifs with positional small long
  · exact isDecimal_of_leadingZeros digits value (by simp [first]) small
  · obtain ⟨n, rfl⟩ : ∃ n : Nat, (n : Int) = k := ⟨k.toNat, by omega⟩
    have count : (ds.length + (n : Int)).toNat - ds.length = n := by omega
    rw [count]
    exact isDecimal_of_trailingZeros digits value first hc n
  · exact isDecimal_of_pointAmong digits value first hc (by omega) (by omega)
  · have read := isDecimal_of_exponent (k := k) digits value first hc rfl lay.exponentWidth
    subst first
    cases cs with
    | nil => exact read
    | cons c' cs => exact read

/-- Every floating-point number is read back, and nothing that follows it is taken. -/
theorem readAtom_float {lim : Limits} (x : Binary64) {rest : List Point} (hr : Stops rest) :
    readAtom lim (points (x.textWith numberLayout) ++ rest) = .ok (.float x, rest) := by
  cases x with
  | undefined => rfl
  | number negative place =>
    by_cases infinite : place.val = Binary64.infinitePlace
    · have last : place = Fin.last _ := Fin.ext infinite
      subst last
      cases negative <;> rfl
    · have finite : place.val < Binary64.infinitePlace := by omega
      have form : (Binary64.number negative place).finite? = some (Binary64.finiteAt place.val) :=
        if_neg infinite
      by_cases zero : place.val = 0
      · have isZero : place = 0 := Fin.ext zero
        subst isZero
        have text : (Binary64.number negative 0).textWith numberLayout =
            if negative then '-' :: (['0'] ++ '.' :: ['0']) else ['0'] ++ '.' :: ['0'] := by
          cases negative <;> rfl
        have isDigit : ∀ c ∈ ['0'], Decimal.isDigit c = true := by simp [Decimal.isDigit]
        obtain ⟨d, e, value, read⟩ := isDecimal_of_fraction ⟨isDigit, Or.inl rfl⟩ isDigit
          (List.cons_ne_nil _ _) (d := 0) (k := 0) (by simp [Decimal.toNat]) lim negative rest hr
        have noDigits : d = 0 := by simpa [zpow_ne_zero] using value
        rw [text, read, noDigits]
        rfl
      · have placed := Binary64.isPlaced_finiteAt (Nat.pos_of_ne_zero zero)
        generalize hf : Binary64.finiteAt place.val = f at *
        obtain ⟨m, q⟩ := f
        have text : (Binary64.number negative place).textWith numberLayout =
            let unsigned := Binary64.layDigits numberLayout
              (Decimal.ofNat (Binary64.shortest m q).1)
              ((Decimal.ofNat (Binary64.shortest m q).1).length + (Binary64.shortest m q).2)
            if negative then '-' :: unsigned else unsigned := by
          obtain ⟨m, rfl⟩ := Nat.exists_eq_succ_of_ne_zero placed.positive.ne'
          simp only [Binary64.textWith, form]
        obtain ⟨d, e, value, read⟩ := isDecimal_layDigits numberLayout
          (Binary64.shortest_pos placed finite) (Binary64.shortest m q).2 lim negative rest hr
        have back := Binary64.ofDecimal_shortest negative (Nat.pos_of_ne_zero zero) finite
          (d := d) (e := e) (by rw [hf]; exact value)
        rw [text, read, back]

end Json

end RecordSeal
