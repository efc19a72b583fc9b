/-
The shortest decimal of a number. A decimal in the rounding interval of a number is rounded to it,
and the decimal that is found lies there: seventeen digits are enough for that. So the digits of a
finite number give it back when they are rounded once. They fit a word, and only zero is written as
zero.
-/
import Rollup.Proofs.Number.Digits
import Rollup.Proofs.Number.Rounding

namespace Rollup.Double

variable {x : Double} {tie : Tie}

/-! ## The rounding interval -/

/-- A quarter of the unit of the last place. -/
def quarter (x : Double) : ℚ :=
  2 ^ (x.exponent - 2)

theorem quarter_pos (x : Double) : 0 < x.quarter :=
  zpow_pos two_pos _

theorem magnitude_eq (x : Double) : x.magnitude = (4 * x.mantissa : ℕ) * x.quarter := by
  rw [magnitude, quarter, zpow_sub₀ two_ne_zero]
  push_cast
  ring

/-- The lower end of the rounding interval. -/
def lower (x : Double) : ℚ :=
  x.lowerQuarter * x.quarter

/-- The upper end of the rounding interval. -/
def upper (x : Double) : ℚ :=
  (4 * x.mantissa + 2 : ℕ) * x.quarter

/-- A rational number lies in the rounding interval, whose ends belong to it when the mantissa is
even. -/
structure Rounds (x : Double) (r : ℚ) : Prop where
  low : x.lower < r ∨ x.mantissa % 2 = 0 ∧ x.lower = r
  high : r < x.upper ∨ x.mantissa % 2 = 0 ∧ r = x.upper

/-- A decimal is compared with a binary number as they are. -/
theorem compareDecimalBinary_eq (a : ℕ) (p : ℤ) (b : ℕ) (q : ℤ) :
    compareDecimalBinary a p b q = compare (a * 10 ^ p : ℚ) (b * 2 ^ q) := by
  have hunit : (0 : ℚ) < 10 ^ (-p).toNat * 2 ^ (-q).toNat := by positivity
  have hdecimal : ((a * 10 ^ p.toNat * 2 ^ (-q).toNat : ℕ) : ℚ) =
      a * 10 ^ p * (10 ^ (-p).toNat * 2 ^ (-q).toNat) := by
    push_cast
    rw [zpow_toNat (by norm_num)]
    ring
  have hbinary : ((b * 2 ^ q.toNat * 10 ^ (-p).toNat : ℕ) : ℚ) =
      b * 2 ^ q * (10 ^ (-p).toNat * 2 ^ (-q).toNat) := by
    push_cast
    rw [zpow_toNat two_ne_zero q]
    ring
  rw [compareDecimalBinary, Nat.pow_eq, Nat.pow_eq, Nat.pow_eq, Nat.pow_eq]
  rcases lt_trichotomy (a * 10 ^ p : ℚ) (b * 2 ^ q) with h | h | h
  · rw [compare_lt_iff_lt.2 h, compare_lt_iff_lt]
    rw [← mul_lt_mul_iff_left₀ hunit, ← hdecimal, ← hbinary] at h
    exact_mod_cast h
  · rw [compare_eq_iff_eq.2 h, compare_eq_iff_eq]
    rw [← mul_left_inj' hunit.ne', ← hdecimal, ← hbinary] at h
    exact_mod_cast h
  · rw [compare_gt_iff_gt.2 h, compare_gt_iff_gt]
    rw [← mul_lt_mul_iff_left₀ hunit, ← hdecimal, ← hbinary] at h
    exact_mod_cast h

theorem readsBack_iff {c : ℕ} {p : ℤ} : x.readsBack c p = true ↔ x.Rounds (c * 10 ^ p) := by
  have hrounds : x.Rounds (c * 10 ^ p) ↔
      (x.lower < c * 10 ^ p ∨ x.mantissa % 2 = 0 ∧ x.lower = c * 10 ^ p) ∧
        (c * 10 ^ p < x.upper ∨ x.mantissa % 2 = 0 ∧ c * 10 ^ p = x.upper) :=
    ⟨fun h => ⟨h.low, h.high⟩, fun h => ⟨h.1, h.2⟩⟩
  rw [hrounds, readsBack]
  simp only [compareDecimalBinary_eq, Bool.and_eq_true, Bool.or_eq_true, beq_iff_eq,
    compare_gt_iff_gt, compare_lt_iff_lt, compare_eq_iff_eq]
  rw [lower, upper, quarter, eq_comm (a := (x.lowerQuarter * 2 ^ (x.exponent - 2) : ℚ))]

/-- The interval is narrower below a power of two. -/
theorem lowerQuarter_cases (h : x.isZero = false) :
    (x.lowerQuarter + 1 = 4 * x.mantissa ∧ x.mantissa = 2 ^ 52 ∧ -1074 < x.exponent) ∨
      (x.lowerQuarter + 2 = 4 * x.mantissa ∧ (x.mantissa = 2 ^ 52 → x.exponent = -1074)) := by
  have hpos := Nat.pos_of_ne_zero (mantissa_ne_zero h)
  have hfraction := x.fractionField_eq
  rw [lowerQuarter]
  split
  case isTrue hpower =>
    obtain ⟨hzero, hmore⟩ : x.fractionField = 0 ∧ 1 < x.exponentField := by simpa using hpower
    have hexponent : ¬(x.exponentField == 0) = true := by
      rw [beq_iff_eq]
      omega
    left
    rw [mantissa, exponent, if_neg hexponent, if_neg hexponent]
    omega
  case isFalse hpower =>
    right
    refine ⟨by omega, fun hmantissa => ?_⟩
    have hless : x.fractionField = 0 → x.exponentField ≤ 1 := by simpa using hpower
    rw [exponent]
    rw [mantissa] at hmantissa
    split at hmantissa
    case isTrue => omega
    case isFalse hexponent =>
      rw [if_neg hexponent]
      rw [beq_iff_eq] at hexponent
      omega

theorem lower_lt_magnitude (h : x.isZero = false) : x.lower < x.magnitude := by
  have hless : x.lowerQuarter < 4 * x.mantissa := by
    rcases lowerQuarter_cases h with ⟨heq, -⟩ | ⟨heq, -⟩ <;> omega
  rw [magnitude_eq, lower, mul_lt_mul_iff_left₀ x.quarter_pos]
  exact_mod_cast hless

theorem magnitude_lt_upper (x : Double) : x.magnitude < x.upper := by
  rw [magnitude_eq, upper, mul_lt_mul_iff_left₀ x.quarter_pos]
  exact_mod_cast Nat.lt_add_of_pos_right two_pos

theorem Rounds.pos {r : ℚ} (h : x.Rounds r) (hzero : x.isZero = false) : 0 < r := by
  have hquarter : 0 < x.lowerQuarter := by
    have := mantissa_ne_zero hzero
    rcases lowerQuarter_cases hzero with ⟨heq, -⟩ | ⟨heq, -⟩ <;> omega
  have hlower : 0 < x.lower :=
    mul_pos (by exact_mod_cast hquarter) x.quarter_pos
  rcases h.low with hlow | ⟨-, hlow⟩
  · exact hlower.trans hlow
  · exact hlow ▸ hlower

theorem Rounds.lower_le {r : ℚ} (h : x.Rounds r) : x.lower ≤ r :=
  h.low.elim le_of_lt fun h => h.2.le

theorem Rounds.le_upper {r : ℚ} (h : x.Rounds r) : r ≤ x.upper :=
  h.high.elim le_of_lt fun h => h.2.le

theorem Rounds.strict {r : ℚ} (h : x.Rounds r) (hodd : x.mantissa % 2 = 1) :
    x.lower < r ∧ r < x.upper :=
  ⟨h.low.resolve_right fun heven => by omega, h.high.resolve_right fun heven => by omega⟩

/-! ## Seventeen digits -/

/-- The interval is wider than the grid of seventeen digits. -/
theorem grid_lt_width (h : x.isZero = false) :
    (10 ^ (x.lead - (17 : ℕ) + 1) : ℚ) < x.upper - x.lower := by
  have hgrid : (10 ^ (x.lead - (17 : ℕ) + 1) * 10 ^ 16 : ℚ) ≤ x.magnitude := by
    refine le_of_eq_of_le ?_ (lead_bounds h).1
    rw [← zpow_natCast, ← zpow_add₀ (by norm_num)]
    congr 1
    omega
  have hquarter := x.quarter_pos
  have hmantissa : (x.mantissa : ℚ) < 2 ^ 53 := by exact_mod_cast x.mantissa_lt
  rw [magnitude_eq] at hgrid
  rw [upper, lower]
  push_cast at hgrid ⊢
  rcases lowerQuarter_cases h with ⟨heq, hpower, -⟩ | ⟨heq, -⟩
  · have hlower : (x.lowerQuarter : ℚ) = 4 * x.mantissa - 1 := by
      rw [eq_sub_iff_add_eq]
      exact_mod_cast heq
    have hpower' : (x.mantissa : ℚ) = 2 ^ 52 := by exact_mod_cast hpower
    rw [hlower, hpower']
    rw [hpower'] at hgrid
    linarith
  · have hlower : (x.lowerQuarter : ℚ) = 4 * x.mantissa - 2 := by
      rw [eq_sub_iff_add_eq]
      exact_mod_cast heq
    have hbound : x.mantissa * x.quarter < 2 ^ 53 * x.quarter :=
      (mul_lt_mul_iff_left₀ hquarter).2 hmantissa
    rw [hlower]
    linarith

/-- So one of the two points around the number lies in the interval. -/
theorem isSome_onGrid? (tie : Tie) (h : x.isZero = false) :
    (x.onGrid? tie (x.lead - (17 : ℕ) + 1)).isSome := by
  have hwidth := grid_lt_width h
  generalize x.lead - (17 : ℕ) + 1 = p at hwidth ⊢
  obtain ⟨hbelow, habove⟩ := x.gridFloor_bounds p
  have hback : x.readsBack (x.gridFloor p) p = true ∨ x.readsBack (x.gridFloor p + 1) p = true := by
    rw [readsBack_iff, readsBack_iff]
    rcases lt_or_ge x.lower (x.gridFloor p * 10 ^ p) with hlow | hlow
    · exact .inl ⟨.inl hlow, .inl (hbelow.trans_lt x.magnitude_lt_upper)⟩
    · refine .inr ⟨.inl ((lower_lt_magnitude h).trans habove), .inl ?_⟩
      push_cast
      linarith
  unfold onGrid?
  dsimp only
  grind

/-! ## The search -/

/-- What is found on a grid is one of the two nearest points, and reads back. -/
theorem of_onGrid? {p : ℤ} {c : Nat} (h : x.onGrid? tie p = some c) :
    (c = x.gridFloor p ∨ c = x.gridFloor p + 1) ∧ x.readsBack c p = true := by
  unfold onGrid? at h
  dsimp only at h
  grind

/-- The search ends with the grid of seventeen digits. -/
theorem exists_searchGrids (tie : Tie) (hzero : x.isZero = false) {grids n : Nat}
    (hgrids : grids + n = 18) (hmore : grids ≠ 0) :
    ∃ c p, x.searchGrids tie x.lead grids n = some (c, p) ∧ c ≤ 10 ^ 17 ∧
      x.Rounds (c * 10 ^ p) := by
  induction grids generalizing n with
  | zero => exact absurd rfl hmore
  | succ grids ih =>
    rw [searchGrids]
    split
    case h_1 c hc =>
      obtain ⟨hpoint, hback⟩ := of_onGrid? hc
      have hfloor := gridFloor_lt hzero n
      have hpow : 10 ^ n ≤ 10 ^ 17 := Nat.pow_le_pow_right (by decide) (by omega)
      exact ⟨c, _, rfl, by omega, readsBack_iff.1 hback⟩
    case h_2 hnone =>
      refine ih (by omega) ?_
      rintro rfl
      obtain rfl : n = 17 := by omega
      have hsome := isSome_onGrid? tie hzero
      rw [hnone] at hsome
      cases hsome

theorem dropZeros_le (fuel c : Nat) (p : ℤ) : (dropZeros fuel c p).1 ≤ c := by
  induction fuel generalizing c p with
  | zero => exact le_rfl
  | succ fuel ih =>
    rw [dropZeros]
    split
    · exact (ih _ _).trans (Nat.div_le_self _ _)
    · exact le_rfl

/-- Without its zeros a decimal is the same. -/
theorem dropZeros_value (fuel c : Nat) (p : ℤ) :
    ((dropZeros fuel c p).1 * 10 ^ (dropZeros fuel c p).2 : ℚ) = c * 10 ^ p := by
  induction fuel generalizing c p with
  | zero => rfl
  | succ fuel ih =>
    rw [dropZeros]
    split
    case isTrue hzero =>
      rw [Bool.and_eq_true, beq_iff_eq] at hzero
      obtain ⟨d, rfl⟩ := Nat.dvd_of_mod_eq_zero hzero.2
      rw [ih, Nat.mul_div_cancel_left d (by decide), zpow_add_one₀ (by norm_num)]
      push_cast
      ring
    case isFalse => rfl

theorem shortest_of_isZero (h : x.isZero = true) : x.shortest tie = (0, 0) :=
  if_pos h

/-- The shortest decimal has at most seventeen digits, or is `10 ^ 17`, and it is rounded to the
number. -/
theorem shortest_rounds (tie : Tie) (h : x.isZero = false) :
    (x.shortest tie).1 ≤ 10 ^ 17 ∧
      x.Rounds ((x.shortest tie).1 * 10 ^ (x.shortest tie).2) := by
  obtain ⟨c, p, hfound, hle, hrounds⟩ :=
    exists_searchGrids tie h (show 17 + 1 = 18 from rfl) (by decide)
  have hshortest : x.shortest tie = dropZeros (digitCount c) c p := by
    rw [lead] at hfound
    simp only [shortest, h, Bool.false_eq_true, if_false, hfound, Option.getD_some]
  rw [hshortest, dropZeros_value]
  exact ⟨(dropZeros_le _ c p).trans hle, hrounds⟩

/-- The digits fit a word, and only zero has none. -/
theorem shortest_bounds (tie : Tie) (x : Double) :
    (x.shortest tie).1 ≤ 10 ^ 17 ∧ ((x.shortest tie).1 = 0 → (x.shortest tie).2 = 0) := by
  cases hzero : x.isZero with
  | true =>
    rw [shortest_of_isZero hzero]
    exact ⟨Nat.zero_le _, fun _ => rfl⟩
  | false =>
    obtain ⟨hle, hrounds⟩ := shortest_rounds tie hzero
    refine ⟨hle, fun hnone => absurd (hrounds.pos hzero) ?_⟩
    rw [hnone, Nat.cast_zero, zero_mul]
    exact lt_irrefl 0

/-! ## Rounding once -/

/-- An integer is the nearest one if it is no farther than a half, and even if it is a half away. -/
theorem nearestEven_eq {num den k : ℕ} (hlow : 2 * (den * k) ≤ 2 * num + den)
    (hhigh : 2 * num ≤ 2 * (den * k) + den)
    (hodd : k % 2 = 1 → 2 * (den * k) < 2 * num + den ∧ 2 * num < 2 * (den * k) + den)
    (hden : den ≠ 0) : nearestEven num den = k := by
  have hsplit := Nat.div_add_mod num den
  have hrest := Nat.mod_lt num (Nat.pos_of_ne_zero hden)
  have hside : k = num / den ∨ k = num / den + 1 := by
    by_contra hside
    rcases (show k + 1 ≤ num / den ∨ num / den + 2 ≤ k by omega) with hfar | hfar
    · have hmul := Nat.mul_le_mul_left den hfar
      rw [Nat.mul_add, Nat.mul_one] at hmul
      omega
    · have hmul := Nat.mul_le_mul_left den hfar
      rw [Nat.mul_add] at hmul
      omega
  rw [nearestEven]
  rcases hside with hk | hk
  · rw [← hk] at hsplit ⊢
    grind
  · rw [hk, Nat.mul_add, Nat.mul_one] at hlow hhigh hodd
    grind

/-- The same for a ratio and a unit that are measured alike. -/
theorem nearestEven_of_units {n d k : ℕ} {u r w : ℚ} (hu : 0 < u) (hw : 0 < w)
    (hn : (n : ℚ) = u * r) (hd : (d : ℚ) = u * w) (hlow : (2 * k - 1) * w ≤ 2 * r)
    (hhigh : 2 * r ≤ (2 * k + 1) * w)
    (hodd : k % 2 = 1 → (2 * k - 1) * w < 2 * r ∧ 2 * r < (2 * k + 1) * w) :
    nearestEven n d = k := by
  have hbelow : (2 * (d * k) : ℚ) - d = u * ((2 * k - 1) * w) := by rw [hd]; ring
  have habove : (2 * (d * k) : ℚ) + d = u * ((2 * k + 1) * w) := by rw [hd]; ring
  have hmiddle : (2 * n : ℚ) = u * (2 * r) := by rw [hn]; ring
  refine nearestEven_eq ?_ ?_ (fun h => ?_) ?_
  · have hle := mul_le_mul_of_nonneg_left hlow hu.le
    rw [← hbelow, ← hmiddle, sub_le_iff_le_add] at hle
    exact_mod_cast hle
  · have hle := mul_le_mul_of_nonneg_left hhigh hu.le
    rw [← habove, ← hmiddle] at hle
    exact_mod_cast hle
  · obtain ⟨hlow, hhigh⟩ := hodd h
    have hlt := mul_lt_mul_of_pos_left hlow hu
    have hlt' := mul_lt_mul_of_pos_left hhigh hu
    rw [← hbelow, ← hmiddle, sub_lt_iff_lt_add] at hlt
    rw [← habove, ← hmiddle] at hlt'
    exact ⟨by exact_mod_cast hlt, by exact_mod_cast hlt'⟩
  · have hpos : (0 : ℚ) < d := hd ▸ mul_pos hu hw
    exact_mod_cast hpos.ne'

/-- So often does two to a power go into a ratio. -/
theorem nearestEven_place {num den k : ℕ} {q : ℤ} {r : ℚ} (hden : den ≠ 0)
    (hr : (num : ℚ) = den * r) (hlow : (2 * k - 1) * 2 ^ q ≤ 2 * r)
    (hhigh : 2 * r ≤ (2 * k + 1) * 2 ^ q)
    (hodd : k % 2 = 1 → (2 * k - 1) * 2 ^ q < 2 * r ∧ 2 * r < (2 * k + 1) * 2 ^ q) :
    (if 0 ≤ q then nearestEven num (den * Nat.pow 2 q.toNat)
      else nearestEven (num * Nat.pow 2 (-q).toNat) den) = k := by
  have hsame : (if 0 ≤ q then nearestEven num (den * Nat.pow 2 q.toNat)
      else nearestEven (num * Nat.pow 2 (-q).toNat) den) =
      nearestEven (num * 2 ^ (-q).toNat) (den * 2 ^ q.toNat) := by
    split
    case isTrue hq =>
      have hzero : (-q).toNat = 0 := by omega
      rw [hzero, pow_zero, Nat.mul_one, Nat.pow_eq]
    case isFalse hq =>
      have hzero : q.toNat = 0 := by omega
      rw [hzero, pow_zero, Nat.mul_one, Nat.pow_eq]
  have hunit : (0 : ℚ) < den * 2 ^ (-q).toNat := by
    have := Nat.pos_of_ne_zero hden
    positivity
  rw [hsame]
  refine nearestEven_of_units hunit (zpow_pos two_pos q) ?_ ?_ hlow hhigh hodd
  · push_cast
    rw [hr]
    ring
  · push_cast
    rw [zpow_toNat two_ne_zero]
    ring

/-- The bits of a number are its exponent and its mantissa, behind its sign. -/
theorem code_eq (x : Double) : x.bits.toNat =
    ((x.exponent + 1074).toNat * 2 ^ 52 + x.mantissa) + x.isNegative.toNat * 2 ^ 63 := by
  have hexponent := x.exponentField_eq
  have hfraction := x.fractionField_eq
  have hsign : x.isNegative.toNat = x.bits.toNat / 2 ^ 63 := by
    have hlt := x.bits.toNat_lt
    rw [isNegative_eq]
    by_cases h : x.bits.toNat / 2 ^ 63 = 1
    · rw [decide_eq_true h, h]
      rfl
    · rw [decide_eq_false h, Bool.toNat_false]
      omega
  rw [hsign, exponent, mantissa]
  split
  case isTrue hzero =>
    rw [beq_iff_eq] at hzero
    omega
  case isFalse hmore =>
    rw [beq_iff_eq] at hmore
    omega

theorem code_lt (h : x.isFinite = true) :
    (x.exponent + 1074).toNat * 2 ^ 52 + x.mantissa < 2047 * 2 ^ 52 := by
  have hexponent := x.exponentField_eq
  have hfraction := x.fractionField_eq
  have hfinite : x.exponentField ≠ 2047 := by simpa [isFinite] using h
  rw [exponent, mantissa]
  split
  case isTrue => omega
  case isFalse hmore =>
    rw [beq_iff_eq] at hmore
    omega

/-- A number is put together from its sign and its code. -/
theorem withSign_code (h : x.isFinite = true) :
    withSign x.isNegative
      ⟨.ofNat ((x.exponent + 1074).toNat * 2 ^ 52 + x.mantissa)⟩ = x := by
  have hlt := code_lt h
  have hbits := toNat_withSign (hlt.trans (by decide)) x.isNegative
  rw [← code_eq, UInt64.toNat_inj] at hbits
  generalize withSign x.isNegative _ = y at hbits
  cases x
  cases y
  exact congrArg mk hbits

theorem exponent_ge (x : Double) : -1074 ≤ x.exponent := by
  rw [exponent]
  split
  · exact le_rfl
  · rename_i hmore
    rw [beq_iff_eq] at hmore
    omega

/-- Above the least exponent a mantissa has all its bits. -/
theorem mantissa_ge (h : -1074 < x.exponent) : 2 ^ 52 ≤ x.mantissa := by
  rw [exponent] at h
  rw [mantissa]
  split at h
  case isTrue => omega
  case isFalse hmore =>
    rw [if_neg hmore]
    omega

theorem two_zpow_exponent_add (x : Double) (n : ℕ) :
    (2 ^ (x.exponent + n) : ℚ) = 2 ^ (n + 2) * x.quarter := by
  rw [quarter, ← zpow_natCast, ← zpow_add₀ two_ne_zero]
  congr 1
  push_cast
  ring

theorem two_zpow_exponent (x : Double) : (2 ^ x.exponent : ℚ) = 4 * x.quarter := by
  have hpow := x.two_zpow_exponent_add 0
  norm_num at hpow
  exact hpow

section Interval

variable {r : ℚ} (h : x.Rounds r)

include h

/-- The interval ends before the number with twice the least full mantissa. -/
theorem Rounds.lt_top : r < 2 ^ (x.exponent + (53 : ℕ)) := by
  have hless : 4 * x.mantissa + 2 < 2 ^ 55 := by
    have := x.mantissa_lt
    omega
  refine h.le_upper.trans_lt ?_
  rw [two_zpow_exponent_add, upper, mul_lt_mul_iff_left₀ x.quarter_pos]
  exact_mod_cast hless

variable (hzero : x.isZero = false)

include hzero

/-- The interval of a full mantissa begins before the least one only right below a power of two. -/
theorem Rounds.power_of_lt (hexponent : -1074 < x.exponent)
    (hless : r < 2 ^ (x.exponent + (52 : ℕ))) :
    x.mantissa = 2 ^ 52 ∧ x.lowerQuarter + 1 = 2 ^ 54 := by
  have hmantissa := mantissa_ge hexponent
  have hlower := h.lower_le.trans_lt hless
  rw [two_zpow_exponent_add, lower, mul_lt_mul_iff_left₀ x.quarter_pos] at hlower
  have hlower : x.lowerQuarter < 2 ^ 54 := by exact_mod_cast hlower
  rcases lowerQuarter_cases hzero with ⟨heq, hpower, -⟩ | ⟨heq, hpower⟩
  · exact ⟨hpower, by omega⟩
  · omega

/-- In its interval a ratio has as many twos as the number, or one less right below a power of
two. -/
theorem Rounds.place_cases {num den : ℕ} (hden : den ≠ 0) (hr : (num : ℚ) = den * r) :
    max (floorLog2 num den - 52) (-1074) = x.exponent ∨
      (max (floorLog2 num den - 52) (-1074) = x.exponent - 1 ∧ -1074 < x.exponent ∧
        r < 2 ^ (x.exponent + (52 : ℕ))) := by
  have hden' : (0 : ℚ) < den := by exact_mod_cast Nat.pos_of_ne_zero hden
  have hnum : num ≠ 0 := by
    have hpos : (0 : ℚ) < num := hr ▸ mul_pos hden' (h.pos hzero)
    exact_mod_cast hpos.ne'
  have hlog := floorLog2_bounds hnum hden
  rw [hr, mul_le_mul_iff_right₀ hden', mul_lt_mul_iff_right₀ hden'] at hlog
  generalize floorLog2 num den = k at hlog ⊢
  have hbelow : ∀ n : ℤ, (2 ^ n : ℚ) ≤ r → n < k + 1 := fun n hn =>
    (zpow_lt_zpow_iff_right₀ one_lt_two).1 (hn.trans_lt hlog.2)
  have habove : ∀ n : ℤ, r < (2 ^ n : ℚ) → k < n := fun n hn =>
    (zpow_lt_zpow_iff_right₀ one_lt_two).1 (hlog.1.trans_lt hn)
  have hleast := x.exponent_ge
  have hhigh := habove _ h.lt_top
  rcases lt_or_ge r (2 ^ (x.exponent + (52 : ℕ))) with hless | hmore
  · rcases eq_or_lt_of_le hleast with hexponent | hexponent
    · left
      omega
    · right
      have hlow : x.exponent + (51 : ℕ) < k + 1 := by
        have hlast := (h.power_of_lt hzero hexponent hless).2
        refine hbelow _ (le_trans ?_ h.lower_le)
        rw [two_zpow_exponent_add, lower, mul_le_mul_iff_left₀ x.quarter_pos]
        exact_mod_cast (by omega : 2 ^ 53 ≤ x.lowerQuarter)
      have hhigh := habove _ hless
      exact ⟨by omega, hexponent, hless⟩
  · left
    have hlow := hbelow _ hmore
    omega

/-- In its interval a ratio is no farther than half a unit from the number. -/
theorem Rounds.halves :
    (2 * x.mantissa - 1) * 2 ^ x.exponent ≤ 2 * r ∧
      2 * r ≤ (2 * x.mantissa + 1) * 2 ^ x.exponent ∧
      (x.mantissa % 2 = 1 → (2 * x.mantissa - 1) * 2 ^ x.exponent < 2 * r ∧
        2 * r < (2 * x.mantissa + 1) * 2 ^ x.exponent) := by
  have hlower : (2 * x.mantissa - 1) * 2 ^ x.exponent ≤ 2 * x.lower := by
    have hle : (4 * x.mantissa : ℚ) ≤ x.lowerQuarter + 2 := by
      have hle : 4 * x.mantissa ≤ x.lowerQuarter + 2 := by
        rcases lowerQuarter_cases hzero with ⟨heq, -⟩ | ⟨heq, -⟩ <;> omega
      exact_mod_cast hle
    have hmul := mul_le_mul_of_nonneg_right hle x.quarter_pos.le
    rw [two_zpow_exponent, lower]
    linarith
  have hupper : 2 * x.upper = (2 * x.mantissa + 1) * 2 ^ x.exponent := by
    rw [two_zpow_exponent, upper]
    push_cast
    ring
  have hlow := h.lower_le
  have hhigh := h.le_upper
  refine ⟨by linarith, by linarith, fun hodd => ?_⟩
  obtain ⟨hlow, hhigh⟩ := h.strict hodd
  constructor <;> linarith

/-- Right below a power of two it is no farther than half a unit of the place below. -/
theorem Rounds.halves_below (hexponent : -1074 < x.exponent)
    (hless : r < 2 ^ (x.exponent + (52 : ℕ))) :
    (2 * (2 ^ 53 : ℕ) - 1) * 2 ^ (x.exponent - 1) ≤ 2 * r ∧
      2 * r ≤ (2 * (2 ^ 53 : ℕ) + 1) * 2 ^ (x.exponent - 1) := by
  have hquarter := x.quarter_pos
  have hhalf : (2 ^ (x.exponent - 1) : ℚ) = 2 * x.quarter := by
    rw [zpow_sub₀ two_ne_zero, two_zpow_exponent]
    ring
  have hlast : (x.lowerQuarter : ℚ) = 2 ^ 54 - 1 := by
    rw [eq_sub_iff_add_eq]
    exact_mod_cast (h.power_of_lt hzero hexponent hless).2
  have hlower := h.lower_le
  rw [lower, hlast] at hlower
  rw [two_zpow_exponent_add] at hless
  norm_num at hless
  rw [hhalf]
  push_cast
  constructor <;> linarith

/-- So it is given the code of the number. -/
theorem Rounds.code_eq {num den : ℕ} (hden : den ≠ 0) (hr : (num : ℚ) = den * r) {q : ℤ}
    (hq : q = max (floorLog2 num den - 52) (-1074)) :
    (q + 1074).toNat * 0x10000000000000 +
        (if 0 ≤ q then nearestEven num (den * Nat.pow 2 q.toNat)
          else nearestEven (num * Nat.pow 2 (-q).toNat) den) =
      (x.exponent + 1074).toNat * 2 ^ 52 + x.mantissa := by
  rcases h.place_cases hzero hden hr with hplace | ⟨hplace, hexponent, hless⟩
  · obtain ⟨hlow, hhigh, hodd⟩ := h.halves hzero
    rw [hq, hplace, nearestEven_place hden hr hlow hhigh hodd]
    rfl
  · -- the mantissa runs over, into the exponent
    obtain ⟨hlow, hhigh⟩ := h.halves_below hzero hexponent hless
    rw [hq, hplace, nearestEven_place hden hr hlow hhigh fun hodd => absurd hodd (by decide),
      (h.power_of_lt hzero hexponent hless).1]
    omega

/-- What lies in the interval of a number is rounded to it. -/
theorem Rounds.ofRatio_eq {num den : ℕ} (hfinite : x.isFinite = true) (hden : den ≠ 0)
    (hr : (num : ℚ) = den * r) : withSign x.isNegative (ofRatio false num den) = x := by
  have hnum : (num == 0) = false := by
    have hpos : (0 : ℚ) < num :=
      hr ▸ mul_pos (by exact_mod_cast Nat.pos_of_ne_zero hden) (h.pos hzero)
    rw [beq_eq_false_iff_ne]
    exact_mod_cast hpos.ne'
  rw [ofRatio, hnum, if_neg Bool.false_ne_true]
  dsimp only
  rw [h.code_eq hzero hden hr rfl, if_pos ((code_lt hfinite).trans_eq (by norm_num))]
  exact withSign_code hfinite

end Interval

end Rollup.Double
