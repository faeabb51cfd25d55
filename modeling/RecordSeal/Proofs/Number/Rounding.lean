import Mathlib
import RecordSeal.Number.Decimal

set_option autoImplicit false

/-! # Rounding to binary64 numbers

The number at a place stands for `m * 2 ^ q`. The rationals nearest to it form an interval whose
ends are halfway to the neighbouring numbers and belong to it exactly if `m` is even (`IsNear`).
`Binary64.ofRatio` takes every quotient in that interval back to the place (`ofRatio_of_isNear`),
so a decimal in it reads back as the number it was written for (`ofDecimal_of_isNear`). -/

namespace RecordSeal.Binary64

/-! ## Powers -/

theorem twoTo_cast (n : ℕ) : ((twoTo n : ℕ) : ℚ) = 2 ^ n := by
  show ((2 ^ n : ℕ) : ℚ) = 2 ^ n
  push_cast
  rfl

theorem tenTo_cast (n : ℕ) : ((tenTo n : ℕ) : ℚ) = 10 ^ n := by
  show ((10 ^ n : ℕ) : ℚ) = 10 ^ n
  push_cast
  rfl

theorem zpow_mul_pow_toNat {x : ℚ} (hx : x ≠ 0) (q : ℤ) :
    x ^ q * x ^ (-q).toNat = x ^ q.toNat := by
  rw [← zpow_natCast x (-q).toNat, ← zpow_natCast x q.toNat, ← zpow_add₀ hx]
  congr 1
  omega

theorem twoTo_pos (n : ℕ) : 0 < twoTo n := Nat.pow_pos (by decide)

theorem tenTo_pos (n : ℕ) : 0 < tenTo n := Nat.pow_pos (by decide)

theorem two_zpow_le_ten_zpow {i j : ℤ} (hj : 0 ≤ j) (h : 28 * i ≤ 93 * j) :
    (2 : ℚ) ^ i ≤ 10 ^ j := by
  have two : (2 : ℚ) ≠ 0 := by norm_num
  rw [← pow_le_pow_iff_left₀ (by positivity) (by positivity) (show 28 ≠ 0 by decide)]
  calc ((2 : ℚ) ^ i) ^ 28 = 2 ^ (28 * i) := by
        rw [← zpow_natCast, ← zpow_mul]
        congr 1
        push_cast
        ring
    _ ≤ 2 ^ (93 * j) := zpow_le_zpow_right₀ (by norm_num) h
    _ = ((2 : ℚ) ^ (93 : ℤ)) ^ j := zpow_mul _ _ _
    _ ≤ ((10 : ℚ) ^ (28 : ℤ)) ^ j := zpow_le_zpow_left₀ hj (by positivity) (by norm_num)
    _ = (10 ^ j) ^ 28 := by
        rw [← zpow_mul, mul_comm, zpow_mul]
        rfl

theorem ten_zpow_le_two_zpow {i j : ℤ} (hj : 0 ≤ j) (h : 10 * j ≤ 3 * i) :
    (10 : ℚ) ^ j ≤ 2 ^ i := by
  rw [← pow_le_pow_iff_left₀ (by positivity) (by positivity) (show 3 ≠ 0 by decide)]
  calc ((10 : ℚ) ^ j) ^ 3 = ((10 : ℚ) ^ (3 : ℤ)) ^ j := by
        rw [← zpow_mul, mul_comm, zpow_mul]
        rfl
    _ ≤ ((2 : ℚ) ^ (10 : ℤ)) ^ j := zpow_le_zpow_left₀ hj (by positivity) (by norm_num)
    _ = 2 ^ (10 * j) := (zpow_mul _ _ _).symm
    _ ≤ 2 ^ (3 * i) := zpow_le_zpow_right₀ (by norm_num) h
    _ = (2 ^ i) ^ 3 := by
        rw [mul_comm, zpow_mul]
        rfl

/-! ## Rounding to natural numbers -/

/-- Rounding gives `r` for every quotient within one half of it, the ends included if `r` is
even. -/
theorem roundHalfEven_eq {a b r : ℕ} (hb : 0 < b) (lower : 2 * r * b ≤ 2 * a + b)
    (upper : 2 * a ≤ (2 * r + 1) * b)
    (tie : r % 2 = 0 ∨ (2 * r * b < 2 * a + b ∧ 2 * a < (2 * r + 1) * b)) :
    roundHalfEven a b = r := by
  have split : b * (a / b) + a % b = a := Nat.div_add_mod a b
  have rest : a % b < b := Nat.mod_lt a hb
  -- A number within one half of the quotient is its floor or the next one.
  have near : r = a / b ∨ r = a / b + 1 := by
    have atMost : r < a / b + 2 := by
      by_contra h
      have : (a / b + 2) * b ≤ r * b := Nat.mul_le_mul_right b (by omega)
      nlinarith
    have atLeast : a / b < r + 1 := by
      by_contra h
      have : (r + 1) * b ≤ a := (Nat.mul_le_mul_right b (by omega)).trans (Nat.div_mul_le_self a b)
      nlinarith
    omega
  simp only [roundHalfEven]
  rcases near with rfl | rfl
  · have e : 2 * (a / b) * b = 2 * (b * (a / b)) := by ring
    have e' : (2 * (a / b) + 1) * b = 2 * (b * (a / b)) + b := by ring
    rw [e] at tie
    rw [e'] at tie upper
    split_ifs <;> omega
  · have e : 2 * (a / b + 1) * b = 2 * (b * (a / b)) + 2 * b := by ring
    have e' : (2 * (a / b + 1) + 1) * b = 2 * (b * (a / b)) + 3 * b := by ring
    rw [e] at tie lower
    rw [e'] at tie
    split_ifs <;> omega

/-! ## The grid of a quotient -/

/-- On the grid of a quotient it has at most fifty-three bits, and fifty-three of them unless the
grid is the finest one. -/
structure IsGrid (x : ℚ) (q : ℤ) : Prop where
  finest : -1074 ≤ q
  upper : x < 2 ^ (53 + q)
  lower : q = -1074 ∨ 2 ^ (52 + q) ≤ x

theorem IsGrid.unique {x : ℚ} {q q' : ℤ} (h : IsGrid x q) (h' : IsGrid x q') : q = q' := by
  have le {q q' : ℤ} (h : IsGrid x q) (h' : IsGrid x q') : q ≤ q' := by
    rcases h.lower with rfl | low
    · exact h'.finest
    · have := (zpow_lt_zpow_iff_right₀ (by norm_num : (1 : ℚ) < 2)).1 (low.trans_lt h'.upper)
      omega
  exact le_antisymm (le h h') (le h' h)

/-- A quotient lies between powers of two that are told by the lengths of its parts. -/
theorem ratio_bounds {a b : ℕ} (ha : 0 < a) (hb : 0 < b) :
    (2 : ℚ) ^ ((a.log2 : ℤ) - b.log2 - 1) ≤ (a : ℚ) / b ∧
      (a : ℚ) / b < 2 ^ ((a.log2 : ℤ) - b.log2 + 1) := by
  have bounds {n : ℕ} (h : 0 < n) :
      (2 : ℚ) ^ (n.log2 : ℤ) ≤ n ∧ (n : ℚ) < 2 ^ ((n.log2 : ℤ) + 1) := by
    have low : 2 ^ n.log2 ≤ n := Nat.log2_self_le (by omega)
    have high : n < 2 ^ (n.log2 + 1) := Nat.lt_log2_self
    constructor
    · rw [zpow_natCast]
      exact_mod_cast low
    · rw [show (n.log2 : ℤ) + 1 = ((n.log2 + 1 : ℕ) : ℤ) by push_cast; rfl, zpow_natCast]
      exact_mod_cast high
  obtain ⟨lowA, highA⟩ := bounds ha
  obtain ⟨lowB, highB⟩ := bounds hb
  have posB : (0 : ℚ) < b := by exact_mod_cast hb
  have two : (2 : ℚ) ≠ 0 := by norm_num
  constructor
  · rw [le_div_iff₀ posB]
    calc (2 : ℚ) ^ ((a.log2 : ℤ) - b.log2 - 1) * b
        ≤ 2 ^ ((a.log2 : ℤ) - b.log2 - 1) * 2 ^ ((b.log2 : ℤ) + 1) := by gcongr
      _ = 2 ^ (a.log2 : ℤ) := by
          rw [← zpow_add₀ two]
          congr 1
          ring
      _ ≤ a := lowA
  · rw [div_lt_iff₀ posB]
    calc (a : ℚ) < 2 ^ ((a.log2 : ℤ) + 1) := highA
      _ = 2 ^ ((a.log2 : ℤ) - b.log2 + 1) * 2 ^ (b.log2 : ℤ) := by
          rw [← zpow_add₀ two]
          congr 1
          ring
      _ ≤ 2 ^ ((a.log2 : ℤ) - b.log2 + 1) * b := by gcongr

theorem fits_iff {a b : ℕ} (hb : 0 < b) (q : ℤ) :
    a * twoTo (-q).toNat < twoTo 52 * b * twoTo q.toNat ↔ (a : ℚ) / b < 2 ^ (52 + q) := by
  have posB : (0 : ℚ) < b := by exact_mod_cast hb
  have posT : (0 : ℚ) < 2 ^ (-q).toNat := by positivity
  have two : (2 : ℚ) ≠ 0 := by norm_num
  rw [← Nat.cast_lt (α := ℚ), div_lt_iff₀ posB]
  push_cast [twoTo_cast]
  have scale : (2 : ℚ) ^ 52 * b * 2 ^ q.toNat = 2 ^ (52 + q) * b * 2 ^ (-q).toNat := by
    rw [← zpow_mul_pow_toNat two q, zpow_add₀ two, zpow_ofNat]
    ring
  rw [scale]
  exact mul_lt_mul_iff_left₀ posT

theorem isGrid_gridExponent {a b : ℕ} (ha : 0 < a) (hb : 0 < b) :
    IsGrid ((a : ℚ) / b) (gridExponent a b) := by
  obtain ⟨low, high⟩ := ratio_bounds ha hb
  have mono {i j : ℤ} (h : i ≤ j) : (2 : ℚ) ^ i ≤ 2 ^ j := zpow_le_zpow_right₀ (by norm_num) h
  simp only [gridExponent, fits_iff hb, Bool.and_eq_true, decide_eq_true_eq]
  generalize hg : (a.log2 : ℤ) - b.log2 - 52 = guess at *
  -- The guess is right or one too large, and the test tells which.
  split_ifs with h
  · obtain ⟨fits, above⟩ := h
    have top : max guess (-1074) = guess := by omega
    rw [top] at fits ⊢
    exact ⟨by omega, by simpa [show 53 + (guess - 1) = 52 + guess by ring] using fits,
      Or.inr ((mono (by omega)).trans low)⟩
  · refine ⟨by omega, high.trans_le (mono (by omega)), ?_⟩
    by_cases above : -1074 < max guess (-1074)
    · right
      by_contra short
      exact h ⟨not_le.1 short, above⟩
    · left
      omega

theorem isGrid_of_quarters {x : ℚ} {q : ℤ} (finest : -1074 ≤ q) (upper : x * 2 ^ (2 - q) < 2 ^ 55)
    (lower : q = -1074 ∨ 2 ^ 54 ≤ x * 2 ^ (2 - q)) : IsGrid x q := by
  have two : (2 : ℚ) ≠ 0 := by norm_num
  have pos : (0 : ℚ) < 2 ^ (2 - q) := by positivity
  have scale (n : ℤ) : (2 : ℚ) ^ (n + q) * 2 ^ (2 - q) = 2 ^ (n + 2) := by
    rw [← zpow_add₀ two]
    congr 1
    ring
  refine ⟨finest, ?_, lower.imp_right ?_⟩
  · rw [← mul_lt_mul_iff_left₀ pos, scale]
    exact_mod_cast upper
  · intro low
    rw [← mul_le_mul_iff_left₀ pos, scale]
    exact_mod_cast low

/-! ## Rounding a quotient -/

/-- A quotient on a grid is the number of steps that the rounding takes apart. -/
theorem scaled_ratio {a b : ℕ} (hb : 0 < b) (q : ℤ) :
    4 * ((a * twoTo (-q).toNat : ℕ) : ℚ) =
      (a : ℚ) / b * 2 ^ (2 - q) * (b * twoTo q.toNat : ℕ) := by
  have two : (2 : ℚ) ≠ 0 := by norm_num
  have posB : (b : ℚ) ≠ 0 := by exact_mod_cast hb.ne'
  have four : (2 : ℚ) ^ (2 - q) * 2 ^ q = 4 := by
    rw [← zpow_add₀ two, show 2 - q + q = 2 by ring]
    norm_num
  push_cast [twoTo_cast]
  rw [← zpow_mul_pow_toNat two q, ← four]
  field_simp

/-- A quotient rounds to the number whose steps on its grid it is nearest to. -/
theorem ofRatio_of_isGrid {a b r : ℕ} {q : ℤ} (negative : Bool) (ha : 0 < a) (hb : 0 < b)
    (grid : IsGrid ((a : ℚ) / b) q) (lower : 4 * (r : ℚ) - 2 ≤ (a : ℚ) / b * 2 ^ (2 - q))
    (upper : (a : ℚ) / b * 2 ^ (2 - q) ≤ 4 * r + 2)
    (tie : r % 2 = 0 ∨
      (4 * (r : ℚ) - 2 < (a : ℚ) / b * 2 ^ (2 - q) ∧ (a : ℚ) / b * 2 ^ (2 - q) < 4 * r + 2)) :
    ofRatio negative a b = atPlace negative ((q + 1074).toNat * 2 ^ 52 + r) := by
  have scale := scaled_ratio (a := a) hb q
  have posB : 0 < b * twoTo q.toNat := Nat.mul_pos hb (twoTo_pos _)
  have posQ : (0 : ℚ) < ((b * twoTo q.toNat : ℕ) : ℚ) := by exact_mod_cast posB
  generalize (a : ℚ) / b * 2 ^ (2 - q) = w at *
  have rounded : roundHalfEven (a * twoTo (-q).toNat) (b * twoTo q.toNat) = r := by
    apply roundHalfEven_eq posB
    · rw [← Nat.cast_le (α := ℚ)]
      push_cast at scale posQ ⊢
      nlinarith
    · rw [← Nat.cast_le (α := ℚ)]
      push_cast at scale posQ ⊢
      nlinarith
    · refine tie.imp_right fun ⟨low, high⟩ => ⟨?_, ?_⟩
      · rw [← Nat.cast_lt (α := ℚ)]
        push_cast at scale posQ ⊢
        nlinarith
      · rw [← Nat.cast_lt (α := ℚ)]
        push_cast at scale posQ ⊢
        nlinarith
  have exponent : gridExponent a b = q := (isGrid_gridExponent ha hb).unique grid
  simp only [ofRatio, if_neg ha.ne', exponent, rounded]
  rfl

/-! ## Numbers nearest to a quotient -/

/-- Whether `m * 2 ^ q` is the number nearest to a rational: it lies between the quarter bounds,
which belong to it if `m` is even. -/
def IsNear (m : ℕ) (q : ℤ) (x : ℚ) : Prop :=
  let (lo, _, hi) := quarterBounds m q
  if m % 2 = 0 then lo ≤ x * 2 ^ (2 - q) ∧ x * 2 ^ (2 - q) ≤ hi
  else lo < x * 2 ^ (2 - q) ∧ x * 2 ^ (2 - q) < hi

/-- The `m` and `q` of a finite number that is not zero, as they come from its place. -/
structure IsPlaced (place m : ℕ) (q : ℤ) : Prop where
  positive : 0 < m
  finest : -1074 ≤ q
  upper : m < 2 ^ 53
  lower : q = -1074 ∨ 2 ^ 52 ≤ m
  place_eq : (q + 1074).toNat * 2 ^ 52 + m = place

theorem isPlaced_finiteAt {place : ℕ} (h : 0 < place) :
    IsPlaced place (finiteAt place).1 (finiteAt place).2 := by
  have e : twoTo 52 = 2 ^ 52 := rfl
  simp only [finiteAt, e]
  split_ifs with small
  · exact ⟨h, le_refl _, by omega, Or.inl rfl, by simp⟩
  · refine ⟨by omega, by omega, by omega, Or.inr (by omega), ?_⟩
    omega

theorem IsNear.bounds {m : ℕ} {q : ℤ} {x : ℚ} (hm : 0 < m) (h : IsNear m q x) :
    4 * (m : ℚ) - 2 ≤ x * 2 ^ (2 - q) ∧ x * 2 ^ (2 - q) ≤ 4 * m + 2 ∧
      (m % 2 = 0 ∨ (4 * (m : ℚ) - 2 < x * 2 ^ (2 - q) ∧ x * 2 ^ (2 - q) < 4 * m + 2)) ∧
      (m = 2 ^ 52 → -1074 < q → 4 * (m : ℚ) - 1 ≤ x * 2 ^ (2 - q)) := by
  have low : ((quarterBounds m q).1 : ℚ) =
      4 * (m : ℚ) - (if m = 2 ^ 52 ∧ -1074 < q then 1 else 2) := by
    have e : twoTo 52 = 2 ^ 52 := rfl
    simp only [quarterBounds, e]
    split_ifs <;> push_cast [Nat.cast_sub (show 1 ≤ 4 * m by omega),
      Nat.cast_sub (show 2 ≤ 4 * m by omega)] <;> rfl
  have high : ((quarterBounds m q).2.2 : ℚ) = 4 * (m : ℚ) + 2 := by simp [quarterBounds]
  simp only [IsNear, low, high] at h
  generalize x * 2 ^ (2 - q) = w at *
  split_ifs at h with even lead lead
  · exact ⟨by linarith [h.1], h.2, Or.inl even, fun _ _ => h.1⟩
  · exact ⟨h.1, h.2, Or.inl even, fun e e' => absurd ⟨e, e'⟩ lead⟩
  · exact ⟨by linarith [h.1], h.2.le, Or.inr ⟨by linarith [h.1], h.2⟩, fun _ _ => h.1.le⟩
  · exact ⟨h.1.le, h.2.le, Or.inr h, fun e e' => absurd ⟨e, e'⟩ lead⟩

/-- A quotient rounds to the number that it is nearest to. Below a power of two the grid is finer
by one step, and the carry of the rounding leads back to the power. -/
theorem ofRatio_of_isNear {place m a b : ℕ} {q : ℤ} (negative : Bool) (hp : IsPlaced place m q)
    (ha : 0 < a) (hb : 0 < b) (near : IsNear m q ((a : ℚ) / b)) :
    ofRatio negative a b = atPlace negative place := by
  obtain ⟨low, high, tie, lead⟩ := near.bounds hp.positive
  have upper : (m : ℚ) + 1 ≤ 2 ^ 53 := by exact_mod_cast hp.upper
  by_cases below : (a : ℚ) / b * 2 ^ (2 - q) < 2 ^ 54 ∧ q ≠ -1074
  · -- Only a power of two has numbers of a finer grid nearest to it.
    obtain ⟨short, coarse⟩ := below
    have normal : 2 ^ 52 ≤ m := hp.lower.resolve_left coarse
    have finer := hp.finest
    have power : m = 2 ^ 52 := by
      by_contra other
      have : ((2 ^ 52 + 1 : ℕ) : ℚ) ≤ m := by exact_mod_cast (show 2 ^ 52 + 1 ≤ m by omega)
      push_cast at this
      linarith
    have lead := lead power (by omega)
    have double : (a : ℚ) / b * 2 ^ (2 - (q - 1)) = 2 * ((a : ℚ) / b * 2 ^ (2 - q)) := by
      rw [show 2 - (q - 1) = 1 + (2 - q) by ring, zpow_add₀ (by norm_num)]
      ring
    have powerQ : (m : ℚ) = 2 ^ 52 := by exact_mod_cast power
    rw [powerQ] at lead
    obtain ⟨r, hr⟩ : ∃ r : ℕ, r = 2 ^ 53 := ⟨_, rfl⟩
    have carry : (q - 1 + 1074).toNat * 2 ^ 52 + r = place := by
      have step : (q + 1074).toNat = (q - 1 + 1074).toNat + 1 := by omega
      rw [← hp.place_eq, hr, power, step]
      ring
    have steps : (r : ℚ) = 2 ^ 53 := by exact_mod_cast hr
    rw [← carry]
    apply ofRatio_of_isGrid negative ha hb
    · apply isGrid_of_quarters (by omega)
      · rw [double]
        linarith
      · rw [double]
        right
        linarith
    · rw [double, steps]
      linarith
    · rw [double, steps]
      linarith
    · exact Or.inl (by omega)
  · -- Elsewhere the quotient is on the grid of the number itself.
    rw [ofRatio_of_isGrid negative ha hb ?_ low high tie, hp.place_eq]
    apply isGrid_of_quarters hp.finest
    · linarith
    · by_contra h
      exact below ⟨lt_of_not_ge fun low => h (Or.inr low), fun e => h (Or.inl e)⟩

/-! ## Decimals -/

theorem IsPlaced.exponent_le {place m : ℕ} {q : ℤ} (hp : IsPlaced place m q)
    (finite : place < infinitePlace) : q ≤ 971 := by
  have limit : infinitePlace = 2047 * 2 ^ 52 := rfl
  have e := hp.place_eq
  rw [limit] at finite
  by_contra h
  have normal : 2 ^ 52 ≤ m := hp.lower.resolve_left (by omega)
  have : 2046 * 2 ^ 52 ≤ (q + 1074).toNat * 2 ^ 52 := Nat.mul_le_mul_right _ (by omega)
  omega

theorem IsNear.range {place m : ℕ} {q : ℤ} {x : ℚ} (hp : IsPlaced place m q)
    (finite : place < infinitePlace) (near : IsNear m q x) :
    (2 : ℚ) ^ (-1075 : ℤ) ≤ x ∧ x < 2 ^ (1025 : ℤ) := by
  obtain ⟨low, high, -, -⟩ := near.bounds hp.positive
  have two : (2 : ℚ) ≠ 0 := by norm_num
  have posT : (0 : ℚ) < 2 ^ (2 - q) := by positivity
  have one : (1 : ℚ) ≤ m := by exact_mod_cast hp.positive
  have upper : (m : ℚ) + 1 ≤ 2 ^ 53 := by exact_mod_cast hp.upper
  have atMost := hp.exponent_le finite
  have atLeast := hp.finest
  constructor
  · rw [← mul_le_mul_iff_left₀ posT, ← zpow_add₀ two]
    calc (2 : ℚ) ^ (-1075 + (2 - q)) ≤ 2 ^ (1 : ℤ) :=
          zpow_le_zpow_right₀ (by norm_num) (by omega)
      _ ≤ x * 2 ^ (2 - q) := by
          norm_num
          linarith
  · rw [← mul_lt_mul_iff_left₀ posT, ← zpow_add₀ two]
    calc x * 2 ^ (2 - q) < 2 ^ (55 : ℤ) := by
          norm_num at upper ⊢
          linarith
      _ ≤ 2 ^ (1025 + (2 - q)) := zpow_le_zpow_right₀ (by norm_num) (by omega)

/-- A decimal that a finite number is nearest to reads back as the number. -/
theorem ofDecimal_of_isNear {place m d : ℕ} {q e : ℤ} (negative : Bool) (hp : IsPlaced place m q)
    (finite : place < infinitePlace) (near : IsNear m q ((d : ℚ) * 10 ^ e)) :
    ofDecimal negative d e = atPlace negative place := by
  obtain ⟨low, high⟩ := near.range hp finite
  have ten : (10 : ℚ) ≠ 0 := by norm_num
  have positive : 0 < d := by
    by_contra h
    obtain rfl : d = 0 := by omega
    have : (0 : ℚ) < 2 ^ (-1075 : ℤ) := by positivity
    simp only [Nat.cast_zero, zero_mul] at low
    linarith
  have ratio : ((d * tenTo e.toNat : ℕ) : ℚ) / (tenTo (-e).toNat : ℕ) = (d : ℚ) * 10 ^ e := by
    push_cast [tenTo_cast]
    rw [← zpow_mul_pow_toNat ten e]
    field_simp
  have notHuge : ¬ 400 < e := by
    intro h
    have : (2 : ℚ) ^ (1025 : ℤ) ≤ d * 10 ^ e :=
      calc (2 : ℚ) ^ (1025 : ℤ) ≤ 10 ^ e := two_zpow_le_ten_zpow (by omega) (by omega)
        _ ≤ d * 10 ^ e := le_mul_of_one_le_left (by positivity) (by exact_mod_cast positive)
    linarith
  have notTiny : ¬ e + d.log2 < -400 := by
    intro h
    have digits : (d : ℚ) ≤ 10 ^ ((d.log2 : ℤ) + 1) := by
      have : d < 2 ^ (d.log2 + 1) := Nat.lt_log2_self
      calc (d : ℚ) ≤ 2 ^ (d.log2 + 1) := by exact_mod_cast this.le
        _ ≤ 10 ^ (d.log2 + 1) := by gcongr; norm_num
        _ = 10 ^ ((d.log2 : ℤ) + 1) := by
            rw [← zpow_natCast]
            push_cast
            rfl
    have : (d : ℚ) * 10 ^ e < 2 ^ (-1075 : ℤ) :=
      calc (d : ℚ) * 10 ^ e ≤ 10 ^ ((d.log2 : ℤ) + 1) * 10 ^ e := by gcongr
        _ = 10 ^ ((d.log2 : ℤ) + 1 + e) := (zpow_add₀ ten _ _).symm
        _ ≤ 10 ^ (-400 : ℤ) := zpow_le_zpow_right₀ (by norm_num) (by omega)
        _ < 2 ^ (-1075 : ℤ) := by
            rw [zpow_neg, zpow_neg, inv_lt_inv₀ (by positivity) (by positivity)]
            calc (2 : ℚ) ^ (1075 : ℤ) < 2 ^ (1200 : ℤ) :=
                  zpow_lt_zpow_right₀ (by norm_num) (by norm_num)
              _ ≤ 10 ^ (400 : ℤ) := two_zpow_le_ten_zpow (by norm_num) (by norm_num)
    linarith
  rw [ofDecimal, if_neg positive.ne', if_neg notHuge, if_neg notTiny]
  exact ofRatio_of_isNear negative hp (Nat.mul_pos positive (tenTo_pos _)) (tenTo_pos _)
    (ratio ▸ near)

end RecordSeal.Binary64
