/-
Numbers that come back from their texts. The digits of a number are rounded first and scaled by a
rounded power of ten then. Up to `2 ^ 53` digits are not changed by that, and neither are powers of
ten up to the twenty-second; so there is only one rounding, and it gives back the number that the
digits are those of.
-/
import Mathlib.Tactic.FieldSimp
import Rollup.Proofs.Json.Numbers

namespace Rollup

namespace Json

open Double

/-! ## Scaling without a rounding in between -/

/-- The first powers of ten are numbers. -/
theorem magnitude_powerOfTen {k : ℕ} (h : k ≤ 22) : (powerOfTen k).magnitude = 10 ^ k := by
  have hratio : ∀ k < 23, (powerOfTen k).ratio.1 = (powerOfTen k).ratio.2 * 10 ^ k := by
    decide +kernel
  have hden : ((powerOfTen k).ratio.2 : ℚ) ≠ 0 := by
    exact_mod_cast (powerOfTen k).ratio_den_ne_zero
  have heq : ((powerOfTen k).ratio.1 : ℚ) = (powerOfTen k).ratio.2 * 10 ^ k := by
    exact_mod_cast hratio k (by omega)
  rw [ratio_eq] at heq
  exact mul_left_cancel₀ hden heq

theorem magnitude_ofInt {c : ℕ} (h : c ≤ 2 ^ 53) : (ofInt c).magnitude = c := by
  have hvalue := value_ofInt_of_le (show (c : ℤ).natAbs ≤ 2 ^ 53 by simpa using h)
  rw [magnitude, ← abs_value, hvalue]
  simp

/-- A product is rounded once. -/
theorem scaleUp_eq (x y : Double) : ∃ num den : ℕ, den ≠ 0 ∧
    (num : ℚ) = den * (x.magnitude * y.magnitude) ∧ scaleUp x y = ofRatio false num den := by
  refine ⟨_, _, (Nat.two_pow_pos _).ne', ?_, rfl⟩
  simp only [Nat.pow_eq, magnitude]
  push_cast
  rw [zpow_toNat two_ne_zero, zpow_add₀ two_ne_zero]
  ring

/-- A quotient is rounded once. -/
theorem scaleDown_eq (x : Double) {y : Double} (hy : y.magnitude ≠ 0) : ∃ num den : ℕ, den ≠ 0 ∧
    (num : ℚ) = den * (x.magnitude / y.magnitude) ∧ scaleDown x y = ofRatio false num den := by
  have hmantissa : (y.mantissa : ℚ) ≠ 0 := left_ne_zero_of_mul hy
  refine ⟨_, _, Nat.mul_ne_zero (by exact_mod_cast hmantissa) (Nat.two_pow_pos _).ne', ?_, rfl⟩
  have hpow := zpow_toNat (two_ne_zero (α := ℚ)) (x.exponent - y.exponent)
  rw [neg_sub, zpow_sub₀ two_ne_zero] at hpow
  simp only [Nat.pow_eq, magnitude]
  push_cast
  rw [hpow]
  field_simp

/-- Digits that are not changed, scaled by a power of ten that is not, are rounded once. -/
theorem scaled_eq {c : ℕ} {p : ℤ} (hzero : c ≠ 0) (hdigits : c ≤ 2 ^ 53) (hpower : p.natAbs ≤ 22) :
    ∃ num den : ℕ, den ≠ 0 ∧ (num : ℚ) = den * (c * 10 ^ p) ∧
      scaled c p = ofRatio false num den := by
  have hc : (c == 0) = false := beq_eq_false_iff_ne.2 hzero
  rw [scaled, hc, if_neg Bool.false_ne_true, if_neg (by omega)]
  split
  case isTrue hp =>
    obtain ⟨num, den, hden, hnum, heq⟩ := scaleUp_eq (ofInt c) (powerOfTen p.toNat)
    refine ⟨num, den, hden, ?_, heq⟩
    rw [hnum, magnitude_ofInt hdigits, magnitude_powerOfTen (by omega), ← zpow_natCast,
      Int.toNat_of_nonneg hp]
  case isFalse hp =>
    have hten : (powerOfTen (-p).toNat).magnitude = 10 ^ (-p).toNat :=
      magnitude_powerOfTen (by omega)
    have hne : (powerOfTen (-p).toNat).magnitude ≠ 0 := by
      rw [hten]
      positivity
    obtain ⟨num, den, hden, hnum, heq⟩ := scaleDown_eq (ofInt c) hne
    rw [if_pos (by omega)]
    refine ⟨num, den, hden, ?_, heq⟩
    rw [hnum, magnitude_ofInt hdigits, hten, ← zpow_natCast, Int.toNat_of_nonneg (by omega),
      zpow_neg, div_inv_eq_mul]

end Json

namespace Double

/-! ## Numbers that are kept -/

theorem withSign_zero {x : Double} (h : x.isZero = true) : withSign x.isNegative zero = x := by
  rw [isZero, Bool.and_eq_true, beq_iff_eq, beq_iff_eq] at h
  have hfinite : x.isFinite = true := by
    rw [isFinite, h.1]
    rfl
  have hcode := withSign_code hfinite
  rwa [exponent, mantissa, h.1, h.2] at hcode

theorem jsonDecimal_of_isZero {x : Double} (h : x.isZero = true) : x.jsonDecimal = (0, -1) := by
  rw [jsonDecimal, shortest_of_isZero h]
  rfl

/-- The zero behind the point changes nothing. -/
theorem jsonDecimal_value (x : Double) : (x.jsonDecimal.1 * 10 ^ x.jsonDecimal.2 : ℚ) =
    (x.shortest .even).1 * 10 ^ (x.shortest .even).2 := by
  rw [jsonDecimal]
  dsimp only
  split
  case isTrue hwhole =>
    have hpow : (10 ^ (x.shortest .even).2 : ℚ) = 10 ^ (x.shortest .even).2.toNat := by
      rw [← zpow_natCast, Int.toNat_of_nonneg hwhole.1]
    rw [hpow]
    push_cast
    rw [zpow_neg_one]
    field_simp
  case isFalse => rfl

/-- A number whose digits are at most `2 ^ 53`, and whose power of ten is one of the first. -/
structure FewDigits (x : Double) : Prop where
  finite : x.isFinite = true
  digits : x.jsonDecimal.1 ≤ 2 ^ 53
  power : x.jsonDecimal.2.natAbs ≤ 22

/-- A number of few digits comes back. -/
theorem FewDigits.reread_eq {x : Double} (h : x.FewDigits) : x.reread = x := by
  cases hzero : x.isZero with
  | true =>
    rw [reread, jsonDecimal_of_isZero hzero]
    exact withSign_zero hzero
  | false =>
    have hrounds := (shortest_rounds .even hzero).2
    rw [← jsonDecimal_value] at hrounds
    have hsome : x.jsonDecimal.1 ≠ 0 := by
      intro hnone
      refine absurd (hrounds.pos hzero) ?_
      rw [hnone, Nat.cast_zero, zero_mul]
      exact lt_irrefl 0
    obtain ⟨num, den, hden, hnum, hscaled⟩ := Json.scaled_eq hsome h.digits h.power
    rw [reread, hscaled]
    exact hrounds.ofRatio_eq hzero h.finite hden hnum

end Double

end Rollup
