import RecordSeal.Number.Literal
import RecordSeal.Text.Digit

set_option autoImplicit false

/-! # Texts of digits that are read as numbers

A text may consist of digits and still be no number: reading wants digits with a decimal value, and
no more than 4300 of them (`Literal.IsReadable`). A text that keeps this is read as the number that
the values of its digits stand for (`Literal.read_of_isReadable`), any other one is refused. -/

namespace RecordSeal

namespace Text

/-- The number that the values of digits stand for. -/
def number (s : String) : Nat :=
  (s.toList.filterMap decimalValue?).foldl (fun n d => 10 * n + d) 0

/-- No blank is a digit: the ranges of the ones lie apart from those of the others. -/
theorem isDigit_of_isBlank {c : Char} (blank : Literal.isBlank c = true) : isDigit c = false := by
  have decimals : ∀ r ∈ Literal.blanks, ∀ z ∈ digitZeros, r.2 < z ∨ z + 10 ≤ r.1 := by decide
  have loose : ∀ r ∈ Literal.blanks, ∀ l ∈ looseDigits, r.2 < l.1 ∨ l.2 < r.1 := by decide
  simp only [Literal.isBlank, inRanges, List.any_eq_true, Bool.and_eq_true, decide_eq_true_eq]
    at blank
  obtain ⟨r, hr, low, high⟩ := blank
  rw [isDigit, Bool.or_eq_false_iff]
  constructor
  · rw [decimalValue?, Option.isSome_map, Option.isSome_eq_false_iff, Option.isNone_iff_eq_none,
      List.find?_eq_none]
    intro z hz
    simp only [Bool.and_eq_true, decide_eq_true_eq, not_and]
    rcases decimals r hr z hz with below | above <;> omega
  · simp only [inRanges, List.any_eq_false, Bool.and_eq_true, decide_eq_true_eq, not_and]
    intro l hl
    rcases loose r hr l hl with below | above <;> omega

end Text

namespace Literal

/-- Whether all digits of a text have a decimal value, and there are not too many. -/
structure IsReadable (s : String) : Prop where
  decimal : ∀ c ∈ s.toList, (Text.decimalValue? c).isSome = true
  short : s.toList.length ≤ maxDigits

variable {cs : List Char}

theorem digits_cons {c : Char} (digit : Text.isDigit c = true) (cs : List Char) (under : Bool) :
    digits (c :: cs) under =
      match Text.decimalValue? c with
      | some d => (digits cs false).map fun (ds, u, rest) => (d :: ds, u, rest)
      | none => some ([], under, c :: cs) := by
  refine digits.eq_3 under c cs ?_
  rintro rfl
  revert digit
  decide

theorem digits_of_decimal (decimal : ∀ c ∈ cs, (Text.decimalValue? c).isSome = true)
    (under : Bool) : digits cs under =
      some (cs.filterMap Text.decimalValue?, under && cs.isEmpty, []) := by
  induction cs generalizing under with
  | nil => simp [digits]
  | cons c cs ih =>
    obtain ⟨first, others⟩ := List.forall_mem_cons.1 decimal
    obtain ⟨d, value⟩ := Option.isSome_iff_exists.1 first
    rw [digits_cons (by rw [Text.isDigit, first, Bool.true_or]), value, ih others,
      List.filterMap_cons, value]
    simp

theorem length_filterMap_of_decimal (decimal : ∀ c ∈ cs, (Text.decimalValue? c).isSome = true) :
    (cs.filterMap Text.decimalValue?).length = cs.length := by
  induction cs with
  | nil => rfl
  | cons c cs ih =>
    obtain ⟨first, others⟩ := List.forall_mem_cons.1 decimal
    obtain ⟨d, value⟩ := Option.isSome_iff_exists.1 first
    rw [List.filterMap_cons, value, List.length_cons, List.length_cons, ih others]

theorem exists_digits_of_loose (all : ∀ c ∈ cs, Text.isDigit c = true)
    (loose : ∃ c ∈ cs, Text.decimalValue? c = none) (under : Bool) :
    ∃ ds u c rest, digits cs under = some (ds, u, c :: rest) ∧ Text.isDigit c = true := by
  induction cs generalizing under with
  | nil => simp at loose
  | cons c cs ih =>
    obtain ⟨first, others⟩ := List.forall_mem_cons.1 all
    rw [digits_cons first]
    cases value : Text.decimalValue? c with
    | none => exact ⟨_, _, _, _, rfl, first⟩
    | some d =>
      obtain ⟨c', hc', none⟩ := loose
      have later : c' ∈ cs := by
        rcases List.mem_cons.1 hc' with rfl | later
        · cases value.symm.trans none
        · exact later
      obtain ⟨ds, u, c'', rest, taken, digit⟩ := ih others ⟨c', later, none⟩ false
      rw [taken]
      exact ⟨_, _, _, _, rfl, digit⟩

theorem read_eq_unsigned (all : ∀ c ∈ cs, Text.isDigit c = true) :
    read cs = (unsigned cs).map fun n => (n : Int) := by
  cases cs with
  | nil => rfl
  | cons c cs =>
    have digit := all c List.mem_cons_self
    have solid : isBlank c = false := by
      cases blank : isBlank c with
      | false => rfl
      | true =>
        rw [Text.isDigit_of_isBlank blank] at digit
        cases digit
    rw [read, List.dropWhile_cons_of_neg (by simp [solid])]
    split
    · next same =>
      obtain ⟨rfl, -⟩ := List.cons.inj same
      exact absurd digit (by decide)
    · next same =>
      obtain ⟨rfl, -⟩ := List.cons.inj same
      exact absurd digit (by decide)
    · rfl

variable {s : String}

theorem of_allDigits (all : Text.allDigits s = true) :
    s.toList.isEmpty = false ∧ ∀ c ∈ s.toList, Text.isDigit c = true := by
  rw [Text.allDigits, Bool.and_eq_true, List.all_eq_true] at all
  refine ⟨?_, all.2⟩
  have filled := all.1
  simpa using filled

/-- Readable digits are read as the number that their values stand for. -/
theorem read_of_isReadable (all : Text.allDigits s = true) (readable : IsReadable s) :
    read s.toList = .ok (Text.number s) := by
  obtain ⟨filled, digits⟩ := of_allDigits all
  have short := readable.short
  rw [← length_filterMap_of_decimal readable.decimal] at short
  rw [read_eq_unsigned digits, unsigned, digits_of_decimal readable.decimal, filled]
  simp only [Bool.and_false, Bool.false_eq_true, if_false, List.all_nil, if_true]
  rw [if_neg (by omega)]
  rfl

theorem exists_fault_of_not_isReadable (all : Text.allDigits s = true)
    (unreadable : ¬ IsReadable s) : ∃ fault, read s.toList = .error fault := by
  obtain ⟨filled, digits⟩ := of_allDigits all
  rw [read_eq_unsigned digits, unsigned]
  by_cases decimal : ∀ c ∈ s.toList, (Text.decimalValue? c).isSome = true
  · have long : maxDigits < (s.toList.filterMap Text.decimalValue?).length := by
      rw [length_filterMap_of_decimal decimal]
      exact Nat.lt_of_not_le fun short => unreadable ⟨decimal, short⟩
    rw [digits_of_decimal decimal, filled]
    simp only [Bool.and_false, Bool.false_eq_true, if_false]
    rw [if_pos long]
    exact ⟨_, rfl⟩
  · simp only [Classical.not_forall, Bool.not_eq_true, Option.isSome_eq_false_iff,
      Option.isNone_iff_eq_none] at decimal
    obtain ⟨c, hc, none⟩ := decimal
    obtain ⟨ds, u, c', rest, taken, digit⟩ := exists_digits_of_loose digits ⟨c, hc, none⟩ true
    -- What is left begins with a digit, which is no blank.
    have left : (c' :: rest).all isBlank = false := by
      rw [List.all_cons]
      cases blank : isBlank c' with
      | false => rfl
      | true =>
        rw [Text.isDigit_of_isBlank blank] at digit
        cases digit
    rw [taken]
    simp only [left]
    split
    · exact ⟨_, rfl⟩
    · split
      · exact ⟨_, rfl⟩
      · exact ⟨_, rfl⟩

end Literal

end RecordSeal
