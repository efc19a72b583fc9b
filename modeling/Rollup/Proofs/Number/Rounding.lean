/-
What binary floating point numbers are worth. A finite one is a rational number, and an integer is
turned into a finite one than which none is nearer; up to 2 ^ 53 it is the integer itself. Back
again, a finite number without a fraction, within the range of signed words, is turned into the word
that is worth the same.
-/
import Mathlib.Algebra.Order.Field.Rat
import Mathlib.Algebra.Order.Field.Power
import Mathlib.Tactic.Linarith
import Mathlib.Tactic.Positivity
import Mathlib.Tactic.Ring
import Rollup.Number.Double

namespace Rollup.Double

/-- A sign as a factor. -/
def signOf (negative : Bool) : ℚ :=
  if negative then -1 else 1

@[simp] theorem signOf_false : signOf false = 1 := rfl

@[simp] theorem signOf_true : signOf true = -1 := rfl

/-- The rational number that a finite number is. -/
def value (x : Double) : ℚ :=
  signOf x.isNegative * (x.mantissa * 2 ^ x.exponent)

/-- A finite number than which none is nearer to a rational number. -/
structure Nearest (r : ℚ) (x : Double) : Prop where
  finite : x.isFinite = true
  le (y : Double) : y.isFinite = true → |x.value - r| ≤ |y.value - r|

/-! ## Fields -/

theorem isNegative_eq (x : Double) : x.isNegative = decide (x.bits.toNat / 2 ^ 63 = 1) := by
  rw [isNegative, Bool.beq_eq_decide_eq, decide_eq_decide, ← UInt64.toNat_inj,
    UInt64.toNat_shiftRight, Nat.shiftRight_eq_div_pow]
  rfl

theorem exponentField_eq (x : Double) : x.exponentField = x.bits.toNat / 2 ^ 52 % 2 ^ 11 := by
  rw [exponentField, UInt64.toNat_and, UInt64.toNat_shiftRight, Nat.shiftRight_eq_div_pow]
  exact Nat.and_two_pow_sub_one_eq_mod _ 11

theorem fractionField_eq (x : Double) : x.fractionField = x.bits.toNat % 2 ^ 52 := by
  rw [fractionField, UInt64.toNat_and]
  exact Nat.and_two_pow_sub_one_eq_mod _ 52

theorem toNat_withSign {code : Nat} (h : code < 2 ^ 63) (negative : Bool) :
    (withSign negative ⟨.ofNat code⟩).bits.toNat = code + negative.toNat * 2 ^ 63 := by
  have hcode : (UInt64.ofNat code).toNat = code :=
    UInt64.toNat_ofNat_of_lt' (h.trans (by decide))
  cases negative with
  | false => rw [withSign, if_neg Bool.false_ne_true, hcode]; rfl
  | true =>
    rw [withSign, if_pos rfl, UInt64.toNat_or, hcode, Nat.or_comm]
    have hor := Nat.two_pow_add_eq_or_of_lt h 1
    rw [Nat.mul_one] at hor
    rw [Bool.toNat_true, Nat.one_mul, Nat.add_comm, hor]
    rfl

theorem mantissa_lt (x : Double) : x.mantissa < 2 ^ 53 := by
  have hfraction := x.fractionField_eq
  rw [mantissa]
  split <;> omega

/-- The fields of a number are the digits of its code. -/
theorem fields_withSign {code : Nat} (hlow : 2 ^ 52 ≤ code) (hhigh : code < 2047 * 2 ^ 52)
    (negative : Bool) :
    let x := withSign negative ⟨.ofNat code⟩
    x.isFinite = true ∧ x.isNegative = negative ∧ x.mantissa = 2 ^ 52 + code % 2 ^ 52 ∧
      x.exponent = code / 2 ^ 52 - 1075 := by
  intro x
  have hbits := toNat_withSign (show code < 2 ^ 63 by omega) negative
  have hnegative : x.isNegative = negative := by
    rw [isNegative_eq, hbits]
    cases negative
    · exact decide_eq_false (by simp only [Bool.toNat_false]; omega)
    · exact decide_eq_true (by simp only [Bool.toNat_true]; omega)
  have hexponent : x.exponentField = code / 2 ^ 52 := by
    rw [exponentField_eq, hbits]
    cases negative <;> simp only [Bool.toNat_false, Bool.toNat_true] <;> omega
  have hfraction : x.fractionField = code % 2 ^ 52 := by
    rw [fractionField_eq, hbits]
    cases negative <;> simp only [Bool.toNat_false, Bool.toNat_true] <;> omega
  have hpositive : ¬(x.exponentField == 0) = true := by
    rw [hexponent, beq_iff_eq]
    omega
  refine ⟨?_, hnegative, ?_, ?_⟩
  · rw [isFinite, hexponent, bne_iff_ne]
    omega
  · rw [mantissa, if_neg hpositive, hfraction]
    rfl
  · rw [exponent, if_neg hpositive, hexponent]
    norm_num

/-- A mantissa of fifty-three bits, or the next power of two, behind an exponent. -/
theorem value_withSign {k m : Nat} (hk : k ≤ 2044) (hm : 2 ^ 52 ≤ m) (hm' : m ≤ 2 ^ 53)
    (negative : Bool) :
    let x := withSign negative ⟨.ofNat (k * 2 ^ 52 + m)⟩
    x.isFinite = true ∧ x.isNegative = negative ∧
      (x.mantissa * 2 ^ x.exponent : ℚ) = m * 2 ^ ((k : ℤ) - 1074) := by
  obtain ⟨hfinite, hnegative, hmantissa, hexponent⟩ :=
    fields_withSign (show 2 ^ 52 ≤ k * 2 ^ 52 + m by omega) (by omega) negative
  refine ⟨hfinite, hnegative, ?_⟩
  rw [hmantissa, hexponent]
  rcases Nat.lt_or_ge m (2 ^ 53) with hlt | hge
  · have hfraction : 2 ^ 52 + (k * 2 ^ 52 + m) % 2 ^ 52 = m := by omega
    have hplace : ((k * 2 ^ 52 + m : ℕ) : ℤ) / 2 ^ 52 - 1075 = k - 1074 := by omega
    rw [hfraction, hplace]
  · -- the mantissa has run over, into the exponent
    obtain rfl : m = 2 ^ 53 := le_antisymm hm' hge
    have hfraction : 2 ^ 52 + (k * 2 ^ 52 + 2 ^ 53) % 2 ^ 52 = 2 ^ 52 := by omega
    have hplace : ((k * 2 ^ 52 + 2 ^ 53 : ℕ) : ℤ) / 2 ^ 52 - 1075 = (k - 1074) + 1 := by omega
    rw [hfraction, hplace, zpow_add_one₀ two_ne_zero]
    push_cast
    ring

/-! ## Rounding -/

theorem nearestEven_cases (num den : Nat) :
    (nearestEven num den = num / den ∧ 2 * (num % den) ≤ den) ∨
      (nearestEven num den = num / den + 1 ∧ den ≤ 2 * (num % den)) := by
  unfold nearestEven
  dsimp only
  split
  · exact .inl ⟨rfl, by omega⟩
  · split
    · exact .inr ⟨rfl, by omega⟩
    · split
      · exact .inl ⟨rfl, by omega⟩
      · exact .inr ⟨rfl, by omega⟩

/-- No multiple of the divisor is nearer. -/
theorem abs_nearestEven_le (num : Nat) {den : Nat} (h : 0 < den) (j : ℤ) :
    |(nearestEven num den * den - num : ℤ)| ≤ |j * den - num| := by
  have hsplit : ((num / den : ℕ) * den + (num % den : ℕ) : ℤ) = num := by
    exact_mod_cast Nat.div_add_mod' num den
  have hrest : num % den < den := Nat.mod_lt num h
  have hside : j * den ≤ (num / den : ℕ) * den ∨ ((num / den : ℕ) + 1) * den ≤ j * den := by
    rcases lt_or_ge ((num / den : ℕ) : ℤ) j with hj | hj
    · exact .inr (Int.mul_le_mul_of_nonneg_right hj (by omega))
    · exact .inl (Int.mul_le_mul_of_nonneg_right hj (by omega))
  rw [Int.add_mul, Int.one_mul] at hside
  rcases nearestEven_cases num den with ⟨hq, hhalf⟩ | ⟨hq, hhalf⟩ <;> rw [hq]
  · grind
  · push_cast
    grind

/-! ## Integers -/

/-- The numbers from the greatest power of two in `n` on are multiples of two to this power. -/
def scale (n : Nat) : ℤ :=
  n.log2 - 52

/-- How often two to the scale of `n` goes into it, the nearest number of times. -/
def scaled (n : Nat) : Nat :=
  if 0 ≤ scale n then nearestEven n (2 ^ (scale n).toNat) else n * 2 ^ (-scale n).toNat

variable {n : Nat}

theorem two_pow_scale_pos (n : Nat) : (0 : ℚ) < 2 ^ scale n :=
  zpow_pos two_pos _

theorem two_pow_sub_mul {p q : ℤ} (h : q ≤ p) : (2 ^ (p - q).toNat * 2 ^ q : ℚ) = 2 ^ p := by
  rw [← zpow_natCast, ← zpow_add₀ two_ne_zero, Int.toNat_of_nonneg (by omega), sub_add_cancel]

theorem two_pow_neg_mul {q : ℤ} (h : q ≤ 0) : (2 ^ (-q).toNat * 2 ^ q : ℚ) = 1 := by
  simpa using two_pow_sub_mul h

theorem two_pow_mul_scale (n k : Nat) : (2 ^ k * 2 ^ scale n : ℚ) = 2 ^ (n.log2 + k - 52 : ℤ) := by
  rw [← zpow_natCast, ← zpow_add₀ two_ne_zero, scale]
  congr 1
  ring

theorem two_pow_scale_le (h : n ≠ 0) : (2 ^ 52 * 2 ^ scale n : ℚ) ≤ n := by
  have hle : (2 ^ n.log2 : ℚ) ≤ n := by exact_mod_cast Nat.log2_self_le h
  rw [two_pow_mul_scale]
  simpa using hle

theorem lt_two_pow_scale (n : Nat) : (n : ℚ) < 2 ^ 53 * 2 ^ scale n := by
  have hlt : (n : ℚ) < 2 ^ (n.log2 + 1) := by exact_mod_cast Nat.lt_log2_self
  have hplace : (n.log2 + (53 : ℕ) - 52 : ℤ) = (n.log2 + 1 : ℕ) := by omega
  rwa [two_pow_mul_scale, hplace, zpow_natCast]

/-- No other number of times comes nearer. -/
theorem abs_scaled_le (n : Nat) (j : ℤ) :
    |(scaled n * 2 ^ scale n - n : ℚ)| ≤ |(j * 2 ^ scale n - n : ℚ)| := by
  rw [scaled]
  split
  · rename_i hscale
    have hle := abs_nearestEven_le n (Nat.two_pow_pos (scale n).toNat) j
    have hpow : (2 ^ scale n : ℚ) = 2 ^ (scale n).toNat := by
      rw [← zpow_natCast, Int.toNat_of_nonneg hscale]
    rw [hpow]
    exact_mod_cast hle
  · rename_i hscale
    have hexact : ((n * 2 ^ (-scale n).toNat : ℕ) * 2 ^ scale n : ℚ) = n := by
      push_cast
      rw [mul_assoc, two_pow_neg_mul (by omega), mul_one]
    rw [hexact, sub_self, abs_zero]
    exact abs_nonneg _

theorem abs_scaled_le_below (h : n ≠ 0) :
    |(scaled n * 2 ^ scale n - n : ℚ)| ≤ n - 2 ^ 52 * 2 ^ scale n := by
  have hle := abs_scaled_le n (2 ^ 52)
  rwa [Int.cast_pow, Int.cast_ofNat, abs_of_nonpos (sub_nonpos.2 (two_pow_scale_le h)),
    neg_sub] at hle

theorem abs_scaled_le_above (n : Nat) :
    |(scaled n * 2 ^ scale n - n : ℚ)| ≤ 2 ^ 53 * 2 ^ scale n - n := by
  have hle := abs_scaled_le n (2 ^ 53)
  rwa [Int.cast_pow, Int.cast_ofNat,
    abs_of_nonneg (sub_nonneg.2 (lt_two_pow_scale n).le)] at hle

/-- The nearest number of times has fifty-three bits, or is the next power of two. -/
theorem scaled_mem (h : n ≠ 0) : 2 ^ 52 ≤ scaled n ∧ scaled n ≤ 2 ^ 53 := by
  have hpos := two_pow_scale_pos n
  have hlow := (abs_le.1 (abs_scaled_le_below h)).1
  have hhigh := (abs_le.1 (abs_scaled_le_above n)).2
  constructor
  · have hle : (2 ^ 52 : ℚ) ≤ scaled n := le_of_mul_le_mul_right (by linarith) hpos
    exact_mod_cast hle
  · have hle : (scaled n : ℚ) ≤ 2 ^ 53 := le_of_mul_le_mul_right (by linarith) hpos
    exact_mod_cast hle

theorem nearestEven_one (n : Nat) : nearestEven n 1 = n := by
  simp [nearestEven, Nat.mod_one]

theorem floorLog2_one (h : n ≠ 0) : floorLog2 n 1 = n.log2 := by
  have hlog : Nat.log2 1 = 0 := by decide
  have hfits : 2 ^ n.log2 ≤ n := Nat.log2_self_le h
  simp [floorLog2, hlog, hfits]

/-- An integer is coded by its scale and the number of times this goes into it. -/
theorem ofInt_eq {k : ℤ} (h : k ≠ 0) : ofInt k =
    let code := (scale k.natAbs + 1074).toNat * 2 ^ 52 + scaled k.natAbs
    withSign (k < 0) (if code < 2047 * 2 ^ 52 then ⟨.ofNat code⟩ else infinity) := by
  have hscale : max (floorLog2 k.natAbs 1 - 52) (-1074) = scale k.natAbs := by
    rw [floorLog2_one (Int.natAbs_ne_zero.2 h), scale]
    omega
  rw [ofInt, ofRatio, if_neg (by simpa using h), hscale]
  simp only [scaled, Nat.pow_eq, Nat.one_mul, nearestEven_one]
  rfl

/-! ## Signs -/

theorem signOf_mul_self (negative : Bool) : signOf negative * signOf negative = 1 := by
  cases negative <;> simp

theorem abs_signOf (negative : Bool) : |signOf negative| = 1 := by
  cases negative <;> simp

theorem cast_eq_signOf (k : ℤ) : (k : ℚ) = signOf (k < 0) * k.natAbs := by
  rcases lt_or_ge k 0 with h | h
  · rw [decide_eq_true h, signOf_true, Nat.cast_natAbs, abs_of_neg h]
    push_cast
    ring
  · rw [decide_eq_false h.not_gt, signOf_false, Nat.cast_natAbs, abs_of_nonneg h, one_mul]

/-- A distance stays the same when both signs are changed. -/
theorem abs_sub_signOf_mul (negative : Bool) (t u : ℚ) :
    |t - signOf negative * u| = |signOf negative * t - u| := by
  have hmul : signOf negative * (t - signOf negative * u) = signOf negative * t - u := by
    rw [mul_sub, ← mul_assoc, signOf_mul_self, one_mul]
  rw [← hmul, abs_mul, abs_signOf, one_mul]

theorem abs_value (x : Double) : |x.value| = x.mantissa * 2 ^ x.exponent := by
  rw [value, abs_mul, abs_signOf, one_mul, abs_of_nonneg (by positivity)]

/-! ## The nearest number -/

/-- A number, of either sign, is a multiple of a power of two or below `2 ^ 52` times this power. -/
theorem value_grid (x : Double) (q : ℤ) {t : ℚ} (ht : |t| = |x.value|) :
    (∃ j : ℤ, t = j * 2 ^ q) ∨ |t| < 2 ^ 52 * 2 ^ q := by
  rw [abs_value] at ht
  rcases le_or_gt q x.exponent with hq | hq
  · rw [← two_pow_sub_mul hq, ← mul_assoc] at ht
    rcases eq_or_eq_neg_of_abs_eq ht with ht | ht
    · exact .inl ⟨x.mantissa * 2 ^ (x.exponent - q).toNat, by rw [ht]; push_cast; rfl⟩
    · exact .inl ⟨-(x.mantissa * 2 ^ (x.exponent - q).toNat), by rw [ht]; push_cast; ring⟩
  · have hmantissa : (x.mantissa : ℚ) < 2 ^ 53 := by exact_mod_cast x.mantissa_lt
    have hexponent : (2 ^ x.exponent : ℚ) ≤ 2 ^ (q - 1) :=
      zpow_le_zpow_right₀ one_le_two (by omega)
    right
    calc |t| = x.mantissa * 2 ^ x.exponent := ht
      _ < 2 ^ 53 * 2 ^ x.exponent := by gcongr
      _ ≤ 2 ^ 53 * 2 ^ (q - 1) := by gcongr
      _ = 2 ^ 52 * 2 ^ q := by rw [zpow_sub_one₀ two_ne_zero]; ring

theorem abs_scaled_le_of_grid (h : n ≠ 0) {t : ℚ}
    (ht : (∃ j : ℤ, t = j * 2 ^ scale n) ∨ |t| < 2 ^ 52 * 2 ^ scale n) :
    |(scaled n * 2 ^ scale n - n : ℚ)| ≤ |t - n| := by
  rcases ht with ⟨j, rfl⟩ | ht
  · exact abs_scaled_le n j
  · -- what is too small to be a multiple is farther than the least power of two that is not
    have hnear := abs_scaled_le_below h
    have hfar : (n : ℚ) - |t| ≤ |t - n| := by
      rw [abs_sub_comm]
      exact (sub_le_sub_left (le_abs_self t) _).trans (le_abs_self _)
    linarith

/-- An integer that is not zero is turned into the nearest multiple of its scale. -/
theorem value_ofInt {k : ℤ} (h : k ≠ 0) (hk : k.natAbs.log2 < 1023) :
    (ofInt k).isFinite = true ∧
      (ofInt k).value = signOf (k < 0) * (scaled k.natAbs * 2 ^ scale k.natAbs) := by
  obtain ⟨hlow, hhigh⟩ := scaled_mem (Int.natAbs_ne_zero.2 h)
  have hplace : (scale k.natAbs + 1074).toNat ≤ 2044 := by
    rw [scale]
    omega
  have hback : (((scale k.natAbs + 1074).toNat : ℕ) : ℤ) - 1074 = scale k.natAbs := by
    rw [scale]
    omega
  obtain ⟨hfinite, hnegative, hmagnitude⟩ := value_withSign hplace hlow hhigh (decide (k < 0))
  rw [ofInt_eq h]
  dsimp only
  rw [if_pos (by omega)]
  exact ⟨hfinite, by rw [value, hnegative, hmagnitude, hback]⟩

theorem ofInt_zero : ofInt 0 = zero := by
  decide

theorem value_zero : zero.value = 0 := by
  have hmantissa : zero.mantissa = 0 := by decide
  rw [value, hmantissa, Nat.cast_zero, zero_mul, mul_zero]

/-- An integer is turned into a number than which none is nearer. -/
theorem ofInt_nearest {k : ℤ} (hk : k.natAbs.log2 < 1023) : Nearest k (ofInt k) := by
  rcases eq_or_ne k 0 with rfl | h
  · rw [ofInt_zero]
    refine ⟨by decide, fun y _ => ?_⟩
    rw [value_zero, Int.cast_zero, sub_zero, abs_zero]
    exact abs_nonneg _
  · obtain ⟨hfinite, hvalue⟩ := value_ofInt h hk
    refine ⟨hfinite, fun y _ => ?_⟩
    rw [hvalue, cast_eq_signOf k, abs_sub_signOf_mul, abs_sub_signOf_mul, ← mul_assoc,
      signOf_mul_self, one_mul]
    refine abs_scaled_le_of_grid (Int.natAbs_ne_zero.2 h) (y.value_grid _ ?_)
    rw [abs_mul, abs_signOf, one_mul]

/-- Up to `2 ^ 53` an integer is a multiple of its scale. -/
theorem exists_eq_mul_scale (h : n ≤ 2 ^ 53) : ∃ j : ℤ, (n : ℚ) = j * 2 ^ scale n := by
  rcases le_or_gt (scale n) 0 with hscale | hscale
  · refine ⟨n * 2 ^ (-scale n).toNat, ?_⟩
    push_cast
    rw [mul_assoc, two_pow_neg_mul hscale, mul_one]
  · have hge : 2 ^ 53 ≤ n := by
      rw [scale] at hscale
      exact (Nat.le_log2 (by rintro rfl; simp at hscale)).1 (by omega)
    obtain rfl : n = 2 ^ 53 := le_antisymm h hge
    have hscale : scale (2 ^ 53) = 1 := by rw [scale, Nat.log2_two_pow]; norm_num
    exact ⟨2 ^ 52, by rw [hscale]; norm_num⟩

/-- Up to `2 ^ 53` an integer is turned into itself. -/
theorem value_ofInt_of_le {k : ℤ} (hk : k.natAbs ≤ 2 ^ 53) : (ofInt k).value = k := by
  rcases eq_or_ne k 0 with rfl | h
  · rw [ofInt_zero, value_zero, Int.cast_zero]
  · have hlog : k.natAbs.log2 < 54 := (Nat.log2_lt (Int.natAbs_ne_zero.2 h)).2 (by omega)
    obtain ⟨j, hj⟩ := exists_eq_mul_scale hk
    have hle := abs_scaled_le k.natAbs j
    rw [← hj, sub_self, abs_zero] at hle
    rw [(value_ofInt h (by omega)).2, sub_eq_zero.1 (abs_nonpos_iff.1 hle), ← cast_eq_signOf]

/-- A number that is one is the only nearest one. -/
theorem Nearest.value_eq {x y : Double} (h : Nearest y.value x) (hy : y.isFinite = true) :
    x.value = y.value := by
  have hle := h.le y hy
  rw [sub_self, abs_zero] at hle
  exact sub_eq_zero.1 (abs_nonpos_iff.1 hle)

/-! ## Whole numbers -/

variable {x : Double}

/-- Without a fraction, nothing is cut off. -/
theorem cast_truncAbs (h : x.isWhole = true) : (x.truncAbs : ℚ) = x.mantissa * 2 ^ x.exponent := by
  rw [isWhole, Bool.and_eq_true, Bool.or_eq_true, decide_eq_true_iff, beq_iff_eq] at h
  rw [truncAbs]
  split
  · rename_i hexponent
    rw [Nat.pow_eq, Nat.cast_mul, Nat.cast_pow, Nat.cast_ofNat, ← zpow_natCast,
      Int.toNat_of_nonneg hexponent]
  · rename_i hexponent
    have hmod := h.2.resolve_left hexponent
    obtain ⟨c, hc⟩ := Nat.dvd_of_mod_eq_zero hmod
    rw [Nat.pow_eq] at hc
    rw [hc, Nat.pow_eq, Nat.mul_div_cancel_left c (Nat.two_pow_pos _)]
    push_cast
    rw [mul_right_comm, two_pow_neg_mul (by omega), one_mul]

/-- The numbers without a fraction are those that are integers. -/
theorem isWhole_iff (h : x.isFinite = true) : x.isWhole = true ↔ ∃ k : ℤ, x.value = k := by
  constructor
  · intro hwhole
    refine ⟨if x.isNegative then -x.truncAbs else x.truncAbs, ?_⟩
    rw [value, ← cast_truncAbs hwhole]
    cases x.isNegative <;> simp
  · rintro ⟨k, hk⟩
    rw [isWhole, h, Bool.true_and, Bool.or_eq_true, decide_eq_true_iff, beq_iff_eq]
    refine or_iff_not_imp_left.2 fun hexponent => Nat.mod_eq_zero_of_dvd ⟨k.natAbs, ?_⟩
    have habs : (k.natAbs : ℚ) = x.mantissa * 2 ^ x.exponent := by
      rw [← abs_value, hk, Nat.cast_natAbs, Int.cast_abs]
    have hcast : (x.mantissa : ℚ) = 2 ^ (-x.exponent).toNat * k.natAbs := by
      rw [habs, mul_left_comm, two_pow_neg_mul (by omega), mul_one]
    exact_mod_cast hcast

/-- A number without a fraction that is a signed word is turned into this word. -/
theorem toInt_toInt64 (h : x.isWhole = true) (hlow : -2 ^ 63 ≤ x.value) (hhigh : x.value < 2 ^ 63) :
    (x.toInt64.toInt : ℚ) = x.value := by
  have hfinite : x.isFinite = true := by
    rw [isWhole, Bool.and_eq_true] at h
    exact h.1
  have hnan : x.isNaN = false := by
    rw [isFinite, bne_iff_ne] at hfinite
    rw [isNaN, beq_false_of_ne hfinite, Bool.false_and]
  rw [value, ← cast_truncAbs h] at hlow hhigh ⊢
  rw [toInt64, hnan, if_neg Bool.false_ne_true, hfinite, Nat.pow_eq]
  simp only [Bool.not_true, Bool.false_or, decide_eq_true_iff]
  -- the sign stands in the bounds and in the two branches, and is decided in all of them at once
  generalize x.isNegative = negative at hlow hhigh ⊢
  cases negative with
  | false =>
    rw [signOf_false, one_mul] at hlow hhigh ⊢
    have hlt : x.truncAbs < 2 ^ 63 := by exact_mod_cast hhigh
    rw [if_neg Bool.false_ne_true, if_neg (by omega), Int64.toInt_ofInt_of_le (by omega) (by omega)]
    rfl
  | true =>
    rw [signOf_true] at hlow hhigh ⊢
    have hle : x.truncAbs ≤ 2 ^ 63 := by
      have hle : (x.truncAbs : ℚ) ≤ 2 ^ 63 := by linarith
      exact_mod_cast hle
    rw [if_pos rfl]
    split
    · -- the least signed word stands for what lies beyond, and is its own
      have heq : x.truncAbs = 2 ^ 63 := by omega
      have hleast : Int64.minValue.toInt = -2 ^ 63 := by decide
      rw [heq, hleast]
      push_cast
      ring
    · rw [Int64.toInt_ofInt_of_le (by omega) (by omega)]
      push_cast
      ring

end Rollup.Double
