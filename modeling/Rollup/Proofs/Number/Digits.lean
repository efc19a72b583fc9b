/-
Places of numbers: the greatest power of two or of ten in a ratio, the digits of an integer, and the
grids of decimals that a binary floating point number is looked for on.
-/
import Mathlib.Algebra.Order.Field.Power
import Mathlib.Algebra.Order.Field.Rat
import Mathlib.Tactic.Linarith
import Mathlib.Tactic.Positivity
import Mathlib.Tactic.Ring
import Rollup.Number.Shortest

namespace Rollup.Double

/-! ## Powers in a ratio -/

theorem zpow_toNat {b : ℚ} (hb : b ≠ 0) (p : ℤ) : b ^ p.toNat = b ^ p * b ^ (-p).toNat := by
  rw [← zpow_natCast, ← zpow_natCast, ← zpow_add₀ hb]
  congr 1
  omega

section

variable {b num den : ℕ} (hb : 1 < b)

include hb

/-- A power fits into a ratio as often as integers say. -/
theorem powerFits_iff {guess : ℤ} :
    (if 0 ≤ guess then decide (den * Nat.pow b guess.toNat ≤ num)
      else decide (den ≤ num * Nat.pow b (-guess).toNat)) = true ↔ (den * b ^ guess : ℚ) ≤ num := by
  have hb' : (0 : ℚ) < b := by exact_mod_cast (zero_lt_one.trans hb)
  have hpow := zpow_toNat hb'.ne' guess
  have hpos : (0 : ℚ) < b ^ (-guess).toNat := by positivity
  split
  case isTrue hguess =>
    have hzero : (-guess).toNat = 0 := by omega
    rw [hzero, pow_zero, mul_one] at hpow
    rw [decide_eq_true_iff, ← hpow]
    exact_mod_cast Iff.rfl
  case isFalse hguess =>
    have hzero : guess.toNat = 0 := by omega
    rw [hzero, pow_zero] at hpow
    rw [decide_eq_true_iff, ← mul_le_mul_iff_of_pos_right hpos, mul_assoc, ← hpow, mul_one]
    exact_mod_cast Iff.rfl

/-- The greatest power in a ratio is the one that the places of both give, or the one before it. -/
theorem power_bounds {k l : ℕ} (hnum : b ^ k ≤ num ∧ num < b ^ (k + 1))
    (hden : b ^ l ≤ den ∧ den < b ^ (l + 1)) {fits : Bool}
    (hfits : fits = true ↔ (den * b ^ (k - l : ℤ) : ℚ) ≤ num) :
    let power : ℤ := if fits then k - l else k - l - 1
    (den * b ^ power : ℚ) ≤ num ∧ (num : ℚ) < den * b ^ (power + 1) := by
  have hb' : (0 : ℚ) < b := by exact_mod_cast (zero_lt_one.trans hb)
  cases fits with
  | true =>
    refine ⟨hfits.1 rfl, ?_⟩
    calc (num : ℚ) < b ^ (k + 1) := by exact_mod_cast hnum.2
      _ = b ^ l * b ^ (k - l + 1 : ℤ) := by
        rw [← zpow_natCast, ← zpow_natCast, ← zpow_add₀ hb'.ne']
        congr 1
        omega
      _ ≤ den * b ^ (k - l + 1 : ℤ) := by
        gcongr
        exact_mod_cast hden.1
  | false =>
    have hless : (num : ℚ) < den * b ^ (k - l : ℤ) :=
      lt_of_not_ge fun hge => Bool.false_ne_true (hfits.2 hge)
    refine ⟨?_, by simpa using hless⟩
    calc (den * b ^ (k - l - 1 : ℤ) : ℚ) ≤ b ^ (l + 1) * b ^ (k - l - 1 : ℤ) := by
          gcongr
          exact_mod_cast hden.2.le
      _ = b ^ k := by
        rw [← zpow_natCast, ← zpow_natCast, ← zpow_add₀ hb'.ne']
        congr 1
        omega
      _ ≤ num := by exact_mod_cast hnum.1

end

theorem floorLog2_bounds {num den : ℕ} (hnum : num ≠ 0) (hden : den ≠ 0) :
    (den * 2 ^ floorLog2 num den : ℚ) ≤ num ∧ (num : ℚ) < den * 2 ^ (floorLog2 num den + 1) := by
  have hplaces : ∀ {n : ℕ}, n ≠ 0 → 2 ^ n.log2 ≤ n ∧ n < 2 ^ (n.log2 + 1) :=
    fun h => ⟨Nat.log2_self_le h, Nat.lt_log2_self⟩
  rw [floorLog2]
  exact_mod_cast power_bounds (b := 2) (by decide) (hplaces hnum) (hplaces hden)
    (powerFits_iff (by decide))

/-! ## Counting digits -/

theorem lt_ten_pow_digitCount (n : Nat) : n < 10 ^ digitCount n :=
  (Nat.length_toDigits_le_iff (by decide) Nat.length_toDigits_pos).1 le_rfl

theorem ten_pow_digitCount_le {n : Nat} (h : n ≠ 0) : 10 ^ (digitCount n - 1) ≤ n := by
  rcases Nat.eq_zero_or_pos (digitCount n - 1) with hone | hmore
  · rw [hone]
    exact Nat.one_le_iff_ne_zero.2 h
  · by_contra hlt
    have hlength := (Nat.length_toDigits_le_iff (by decide) hmore).2 (Nat.not_le.1 hlt)
    rw [← digitCount] at hlength
    omega

/-- No digits but those of zero begin with zero. -/
theorem head?_toDigits {n : Nat} (h : n ≠ 0) : (Nat.toDigits 10 n).head? ≠ some '0' := by
  have hdigit : ∀ k < 10, k ≠ 0 → [k.digitChar].head? ≠ some '0' := by decide
  induction n using Nat.strongRecOn with
  | ind n ih =>
    rcases Nat.lt_or_ge n 10 with hlt | hge
    · rw [Nat.toDigits_of_lt_base hlt]
      exact hdigit n hlt h
    · rw [Nat.toDigits_of_base_le (by decide) hge,
        List.head?_append_of_ne_nil _ Nat.toDigits_ne_nil]
      exact ih (n / 10) (by omega) (by omega)

theorem places_ten {n : ℕ} (h : n ≠ 0) :
    10 ^ (digitCount n - 1) ≤ n ∧ n < 10 ^ (digitCount n - 1 + 1) := by
  have hcount : 0 < digitCount n := Nat.length_toDigits_pos
  rw [Nat.sub_add_cancel hcount]
  exact ⟨ten_pow_digitCount_le h, lt_ten_pow_digitCount n⟩

theorem floorLog10_bounds {num den : ℕ} (hnum : num ≠ 0) (hden : den ≠ 0) :
    (den * 10 ^ floorLog10 num den : ℚ) ≤ num ∧
      (num : ℚ) < den * 10 ^ (floorLog10 num den + 1) := by
  have hcount : 0 < digitCount num := Nat.length_toDigits_pos
  have hcount' : 0 < digitCount den := Nat.length_toDigits_pos
  have hguess : (digitCount num : ℤ) - digitCount den =
      ((digitCount num - 1 : ℕ) : ℤ) - (digitCount den - 1 : ℕ) := by omega
  rw [floorLog10, hguess]
  exact_mod_cast power_bounds (b := 10) (by decide) (places_ten hnum) (places_ten hden)
    (powerFits_iff (by decide))

/-! ## Grids of decimals -/

/-- The absolute value of a finite number. -/
def magnitude (x : Double) : ℚ :=
  x.mantissa * 2 ^ x.exponent

theorem ratio_den_ne_zero (x : Double) : x.ratio.2 ≠ 0 :=
  (Nat.two_pow_pos _).ne'

theorem ratio_eq (x : Double) : (x.ratio.1 : ℚ) = x.ratio.2 * x.magnitude := by
  have hnum : (x.ratio.1 : ℚ) = x.mantissa * 2 ^ x.exponent.toNat := by
    exact_mod_cast rfl
  have hden : (x.ratio.2 : ℚ) = 2 ^ (-x.exponent).toNat := by
    exact_mod_cast rfl
  rw [hnum, hden, magnitude, zpow_toNat two_ne_zero]
  ring

variable {x : Double}

theorem mantissa_ne_zero (h : x.isZero = false) : x.mantissa ≠ 0 := by
  rw [mantissa]
  split
  case isTrue hexponent => simpa [isZero, hexponent] using h
  case isFalse => omega

theorem magnitude_pos (h : x.isZero = false) : 0 < x.magnitude := by
  have hmantissa : (0 : ℚ) < x.mantissa := by exact_mod_cast Nat.pos_of_ne_zero (mantissa_ne_zero h)
  exact mul_pos hmantissa (zpow_pos two_pos _)

/-- The power of ten of the first digit. -/
def lead (x : Double) : ℤ :=
  floorLog10 x.ratio.1 x.ratio.2

theorem lead_bounds (h : x.isZero = false) :
    (10 ^ x.lead : ℚ) ≤ x.magnitude ∧ x.magnitude < 10 ^ (x.lead + 1) := by
  have hden : (0 : ℚ) < x.ratio.2 := by exact_mod_cast Nat.pos_of_ne_zero x.ratio_den_ne_zero
  have hnum : x.ratio.1 ≠ 0 := by
    have hpos : (0 : ℚ) < x.ratio.1 := by
      rw [ratio_eq]
      exact mul_pos hden (magnitude_pos h)
    exact_mod_cast hpos.ne'
  have hbounds := floorLog10_bounds hnum x.ratio_den_ne_zero
  rwa [ratio_eq, mul_le_mul_iff_right₀ hden, mul_lt_mul_iff_right₀ hden] at hbounds

/-- A number lies between the two points of a grid that are tried. -/
theorem gridFloor_bounds (x : Double) (p : ℤ) :
    (x.gridFloor p * 10 ^ p : ℚ) ≤ x.magnitude ∧
      x.magnitude < ((x.gridFloor p + 1 : ℕ) * 10 ^ p : ℚ) := by
  have hfloor : x.gridFloor p =
      x.ratio.1 * 10 ^ (-p).toNat / (x.ratio.2 * 10 ^ p.toNat) := rfl
  have hden : 0 < x.ratio.2 * 10 ^ p.toNat :=
    Nat.mul_pos (Nat.pos_of_ne_zero x.ratio_den_ne_zero) (Nat.pow_pos (by decide))
  have hunit : (0 : ℚ) < x.ratio.2 * 10 ^ (-p).toNat := by
    have := Nat.pos_of_ne_zero x.ratio_den_ne_zero
    positivity
  have hgrid (c : ℕ) : ((c * (x.ratio.2 * 10 ^ p.toNat) : ℕ) : ℚ) =
      x.ratio.2 * 10 ^ (-p).toNat * (c * 10 ^ p) := by
    push_cast
    rw [zpow_toNat (by norm_num)]
    ring
  have hnum : ((x.ratio.1 * 10 ^ (-p).toNat : ℕ) : ℚ) =
      x.ratio.2 * 10 ^ (-p).toNat * x.magnitude := by
    push_cast
    rw [ratio_eq]
    ring
  constructor
  · rw [← mul_le_mul_iff_right₀ hunit, ← hgrid, ← hnum, hfloor]
    exact_mod_cast Nat.div_mul_le_self _ _
  · rw [← mul_lt_mul_iff_right₀ hunit, ← hgrid, ← hnum, hfloor]
    exact_mod_cast Nat.lt_mul_of_div_lt (Nat.lt_succ_self _) hden

/-- So many places below the leading one there are so many digits. -/
theorem gridFloor_lt (h : x.isZero = false) (n : Nat) :
    x.gridFloor (x.lead - n + 1) < 10 ^ n := by
  have hpos : (0 : ℚ) < 10 ^ (x.lead - n + 1) := zpow_pos (by norm_num) _
  have hlt : (x.gridFloor (x.lead - n + 1) * 10 ^ (x.lead - n + 1) : ℚ) <
      10 ^ n * 10 ^ (x.lead - n + 1) :=
    calc (x.gridFloor (x.lead - n + 1) * 10 ^ (x.lead - n + 1) : ℚ)
        ≤ x.magnitude := (x.gridFloor_bounds _).1
      _ < 10 ^ (x.lead + 1) := (lead_bounds h).2
      _ = 10 ^ n * 10 ^ (x.lead - n + 1) := by
        rw [← zpow_natCast, ← zpow_add₀ (by norm_num)]
        congr 1
        omega
  exact_mod_cast lt_of_mul_lt_mul_right hlt hpos.le

end Rollup.Double
