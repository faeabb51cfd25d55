import RecordSeal.Proofs.Number.Rounding

set_option autoImplicit false

/-! # The shortest digits read back

A candidate that the search for digits takes lies in the interval of decimals that round to the
number (`isNear_of_onGrid`), and on a grid as fine as the interval there is one
(`isSome_onGrid`). The search reaches such a grid, so its digits read back as the number
(`ofDecimal_shortest`). -/

namespace RecordSeal.Binary64

/-! ## One grid -/

/-- Whether a multiple of `10 ^ k` lies between the quarter bounds of a number. -/
def isInside (m : ℕ) (q k : ℤ) (c : ℕ) : Bool :=
  let (lo, _, hi) := quarterBounds m q
  let unit := twoTo (q - 2).toNat * tenTo (-k).toNat
  let step := twoTo (2 - q).toNat * tenTo k.toNat
  if m % 2 = 0 then lo * unit ≤ c * step && c * step ≤ hi * unit
  else lo * unit < c * step && c * step < hi * unit

/-- The multiple of `10 ^ k` at or below a number. -/
def gridFloor (m : ℕ) (q k : ℤ) : ℕ :=
  4 * m * (twoTo (q - 2).toNat * tenTo (-k).toNat) / (twoTo (2 - q).toNat * tenTo k.toNat)

theorem onGrid_spec (m : ℕ) (q k : ℤ) :
    (∀ c, onGrid? m q k = some c → isInside m q k c = true) ∧
      (isInside m q k (gridFloor m q k) = true → (onGrid? m q k).isSome = true) := by
  unfold onGrid? isInside gridFloor
  have mid : (quarterBounds m q).2.1 = 4 * m := rfl
  generalize quarterBounds m q = bounds at *
  obtain ⟨lo, _, hi⟩ := bounds
  obtain rfl := mid
  dsimp only
  generalize twoTo (q - 2).toNat * tenTo (-k).toNat = unit
  generalize twoTo (2 - q).toNat * tenTo k.toNat = step
  constructor
  · intro c h
    split at h
    · cases h
    · cases h
      assumption
    · cases h
      assumption
    · split_ifs at h <;> cases h <;> assumption
  · intro h
    rw [h]
    split <;> first | rfl | contradiction | skip
    split_ifs <;> rfl

theorem step_eq (q k : ℤ) :
    ((twoTo (2 - q).toNat * tenTo k.toNat : ℕ) : ℚ) =
      10 ^ k * 2 ^ (2 - q) * ((twoTo (q - 2).toNat * tenTo (-k).toNat : ℕ) : ℚ) := by
  have two : (2 : ℚ) ≠ 0 := by norm_num
  have ten : (10 : ℚ) ≠ 0 := by norm_num
  push_cast [twoTo_cast, tenTo_cast]
  rw [← zpow_mul_pow_toNat ten k, ← zpow_mul_pow_toNat two (2 - q), neg_sub]
  ring

theorem isNear_of_isInside {m c : ℕ} {q k : ℤ} (h : isInside m q k c = true) :
    IsNear m q ((c : ℚ) * 10 ^ k) := by
  have ratio := step_eq q k
  have posU : 0 < twoTo (q - 2).toNat * tenTo (-k).toNat :=
    Nat.mul_pos (twoTo_pos _) (tenTo_pos _)
  simp only [isInside, IsNear] at h ⊢
  generalize quarterBounds m q = bounds at *
  obtain ⟨lo, _, hi⟩ := bounds
  generalize twoTo (q - 2).toNat * tenTo (-k).toNat = unit at *
  generalize twoTo (2 - q).toNat * tenTo k.toNat = step at *
  have posU' : (0 : ℚ) < unit := by exact_mod_cast posU
  have steps : ((c * step : ℕ) : ℚ) = c * 10 ^ k * 2 ^ (2 - q) * unit := by
    push_cast [ratio]
    ring
  have le_iff (x : ℕ) : x * unit ≤ c * step ↔ (x : ℚ) ≤ c * 10 ^ k * 2 ^ (2 - q) := by
    rw [← Nat.cast_le (α := ℚ), steps, Nat.cast_mul, mul_le_mul_iff_left₀ posU']
  have ge_iff (x : ℕ) : c * step ≤ x * unit ↔ c * 10 ^ k * 2 ^ (2 - q) ≤ (x : ℚ) := by
    rw [← Nat.cast_le (α := ℚ), steps, Nat.cast_mul, mul_le_mul_iff_left₀ posU']
  dsimp only at h ⊢
  split_ifs at h ⊢ with even
  · simp only [Bool.and_eq_true, decide_eq_true_eq, le_iff, ge_iff] at h
    exact h
  · simp only [Bool.and_eq_true, decide_eq_true_eq, ← not_le, le_iff, ge_iff] at h
    exact ⟨not_le.1 h.1, not_le.1 h.2⟩

/-- A multiple of a step that is no longer than a unit lies strictly between the units around. -/
theorem floor_between {lo mid hi unit step : ℕ} (hs : 0 < step) (small : step ≤ unit)
    (low : lo < mid) (high : mid < hi) :
    lo * unit < mid * unit / step * step ∧ mid * unit / step * step < hi * unit := by
  have below : mid * unit / step * step ≤ mid * unit := Nat.div_mul_le_self _ _
  have above : mid * unit < mid * unit / step * step + step := Nat.lt_div_mul_add hs
  have lower : (lo + 1) * unit ≤ mid * unit := Nat.mul_le_mul_right _ low
  have upper : (mid + 1) * unit ≤ hi * unit := Nat.mul_le_mul_right _ high
  have e : (lo + 1) * unit = lo * unit + unit := by ring
  have e' : (mid + 1) * unit = mid * unit + unit := by ring
  omega

/-- On a grid as fine as a quarter of `2 ^ q` the multiple below the number is inside. -/
theorem isInside_gridFloor {m : ℕ} {q k : ℤ} (hm : 0 < m) (fine : (10 : ℚ) ^ k ≤ 2 ^ (q - 2)) :
    isInside m q k (gridFloor m q k) = true := by
  have small : twoTo (2 - q).toNat * tenTo k.toNat ≤ twoTo (q - 2).toNat * tenTo (-k).toNat := by
    rw [← Nat.cast_le (α := ℚ), step_eq]
    have : (10 : ℚ) ^ k * 2 ^ (2 - q) ≤ 2 ^ (q - 2) * 2 ^ (2 - q) := by gcongr
    rw [← zpow_add₀ (by norm_num), show q - 2 + (2 - q) = 0 by ring, zpow_zero] at this
    exact mul_le_of_le_one_left (by positivity) this
  have low : (quarterBounds m q).1 < 4 * m := by
    simp only [quarterBounds]
    split_ifs <;> omega
  have high : 4 * m < (quarterBounds m q).2.2 := by
    simp only [quarterBounds]
    omega
  have between := floor_between (Nat.mul_pos (twoTo_pos _) (tenTo_pos _)) small low high
  simp only [isInside, gridFloor]
  split_ifs
  · rw [Bool.and_eq_true]
    exact ⟨decide_eq_true between.1.le, decide_eq_true between.2.le⟩
  · rw [Bool.and_eq_true]
    exact ⟨decide_eq_true between.1, decide_eq_true between.2⟩

/-! ## The search -/

/-- If some grid of the search gives something, the search ends with what a grid gives. -/
theorem onGrid_firstGrid {m : ℕ} {q : ℤ} (fuel : ℕ) (top : ℤ) (i : ℕ) (hi : i < fuel)
    (found : (onGrid? m q (top - i)).isSome = true) :
    onGrid? m q (firstGrid m q fuel top).2 = some (firstGrid m q fuel top).1 := by
  induction fuel generalizing top i with
  | zero => omega
  | succ fuel ih =>
    rw [firstGrid]
    cases here : onGrid? m q top with
    | some c => simpa using here
    | none =>
      cases i with
      | zero => simp [here] at found
      | succ i =>
        apply ih (top - 1) i (by omega)
        rwa [show top - 1 - (i : ℤ) = top - ((i + 1 : ℕ) : ℤ) by push_cast; ring]

/-- The last grid of the search is fine enough for a number of up to fifty-three bits. -/
theorem last_grid_fine {m : ℕ} {q : ℤ} (hm : 0 < m) (upper : m < 2 ^ 53) (finest : -1074 ≤ q)
    (coarsest : q ≤ 971) :
    (10 : ℚ) ^ (((m.log2 : ℤ) + 1 + q) * 30103 / 100000 + 2 - (23 : ℕ)) ≤ 2 ^ (q - 2) := by
  have bits : m.log2 < 53 := (Nat.log2_lt (by omega)).2 upper
  generalize hl : (m.log2 : ℤ) + 1 + q = l at *
  generalize ht : l * 30103 / 100000 = t at *
  have two : (2 : ℚ) ≠ 0 := by norm_num
  -- Above one the exponent of ten is bounded by that of two, below one the other way round.
  have scaled : (10 : ℚ) ^ t ≤ 2 ^ (l + 14) := by
    rcases le_or_gt 0 t with pos | neg
    · exact ten_zpow_le_two_zpow pos (by omega)
    · have inv : (2 : ℚ) ^ (-(l + 14)) ≤ 10 ^ (-t) := two_zpow_le_ten_zpow (by omega) (by omega)
      rwa [zpow_neg, zpow_neg, inv_le_inv₀ (by positivity) (by positivity)] at inv
  have digits : (2 : ℚ) ^ (69 : ℤ) ≤ 10 ^ (21 : ℤ) :=
    two_zpow_le_ten_zpow (by norm_num) (by norm_num)
  calc (10 : ℚ) ^ (t + 2 - (23 : ℕ)) = 10 ^ t / 10 ^ (21 : ℤ) := by
        rw [← zpow_sub₀ (by norm_num)]
        congr 1
        push_cast
        ring
    _ ≤ 2 ^ (l + 14) / 2 ^ (69 : ℤ) := by gcongr
    _ = 2 ^ (l + 14 - 69) := (zpow_sub₀ two _ _).symm
    _ ≤ 2 ^ (q - 2) := zpow_le_zpow_right₀ (by norm_num) (by omega)

theorem isNear_shortest {place m : ℕ} {q : ℤ} (hp : IsPlaced place m q)
    (finite : place < infinitePlace) :
    IsNear m q (((shortest m q).1 : ℚ) * 10 ^ (shortest m q).2) := by
  -- The last grid has a hit, so the search ends with one, on that grid or before it.
  apply isNear_of_isInside
  apply (onGrid_spec m q _).1
  apply onGrid_firstGrid 24 _ 23 (by decide)
  apply (onGrid_spec m q _).2
  exact isInside_gridFloor hp.positive
    (last_grid_fine hp.positive hp.upper hp.finest (hp.exponent_le finite))

theorem shortest_pos {place m : ℕ} {q : ℤ} (hp : IsPlaced place m q)
    (finite : place < infinitePlace) : 0 < (shortest m q).1 := by
  by_contra h
  have near := (isNear_shortest hp finite).range hp finite
  rw [show (shortest m q).1 = 0 by omega] at near
  have : (0 : ℚ) < 2 ^ (-1075 : ℤ) := by positivity
  simp only [Nat.cast_zero, zero_mul] at near
  linarith [near.1]

/-- Digits of the value of the shortest ones read back as the number. -/
theorem ofDecimal_shortest {place d : ℕ} {e : ℤ} (negative : Bool) (hp : 0 < place)
    (finite : place < infinitePlace)
    (value : (d : ℚ) * 10 ^ e = ((shortest (finiteAt place).1 (finiteAt place).2).1 : ℚ) *
      10 ^ (shortest (finiteAt place).1 (finiteAt place).2).2) :
    ofDecimal negative d e = .number negative ⟨place, finite.trans (Nat.lt_succ_self _)⟩ := by
  have placed := isPlaced_finiteAt hp
  rw [ofDecimal_of_isNear negative placed finite (value ▸ isNear_shortest placed finite)]
  simp [atPlace, finite.trans (Nat.lt_succ_self _)]

end RecordSeal.Binary64
