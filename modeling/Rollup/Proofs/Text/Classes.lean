/-
Classes of characters. A class is given by ranges of code points; two classes have no character in
common if no range of the one meets a range of the other. So no blank is part of a word.
-/
import Mathlib.Logic.Basic
import Rollup.Text.Blank
import Rollup.Text.Word

namespace Rollup.Text

namespace RangeSet

/-- Membership said of the list of ranges, which a finite check can walk through. -/
theorem contains_eq_any (s : RangeSet) (c : Char) :
    s.contains c = s.ranges.toList.any fun r => r.1 ≤ c.toNat && c.toNat ≤ r.2 := by
  rw [contains, ← Array.any_toList]

theorem contains_eq_false {s : RangeSet} {lo hi : Nat} {c : Char}
    (h : ∀ r ∈ s.ranges.toList, r.2 < lo ∨ hi < r.1) (hlo : lo ≤ c.toNat) (hhi : c.toNat ≤ hi) :
    s.contains c = false := by
  rw [contains_eq_any, List.any_eq_false]
  intro r hr
  have := h r hr
  simp
  omega

end RangeSet

/-- The ranges of the blanks beyond ASCII. -/
def blankRanges : List (Nat × Nat) :=
  [(0x85, 0x85), (0xA0, 0xA0), (0x1680, 0x1680), (0x2000, 0x200A), (0x2028, 0x2029),
    (0x202F, 0x202F), (0x205F, 0x205F), (0x3000, 0x3000)]

theorem range_of_isBlank {c : Char} (h : isBlank c = true) (hascii : ¬ c.toNat < 0x80) :
    ∃ b ∈ blankRanges, b.1 ≤ c.toNat ∧ c.toNat ≤ b.2 := by
  simp only [isBlank, Bool.or_eq_true, Bool.and_eq_true, decide_eq_true_eq, beq_iff_eq] at h
  simp [blankRanges]
  omega

theorem isWordChar_of_isBlank {c : Char} (h : isBlank c = true) : isWordChar c = false := by
  by_cases hascii : c.toNat < 0x80
  · have hall : ∀ n < 0x80, isBlank (Char.ofNat n) = true → isWordChar (Char.ofNat n) = false := by
      decide +kernel
    rw [← Char.ofNat_toNat c] at h ⊢
    exact hall _ hascii h
  · obtain ⟨b, hb, hlo, hhi⟩ := range_of_isBlank h hascii
    have hletters : ∀ b ∈ blankRanges, ∀ r ∈ alphabeticSet.ranges.toList, r.2 < b.1 ∨ b.2 < r.1 := by
      decide +kernel
    have hdigits : ∀ b ∈ blankRanges, ∀ r ∈ decimalDigitSet.ranges.toList,
        r.2 < b.1 ∨ b.2 < r.1 := by
      decide +kernel
    have hmarks : ∀ b ∈ blankRanges, ∀ r ∈ wordMarkSet.ranges.toList, r.2 < b.1 ∨ b.2 < r.1 := by
      decide +kernel
    rw [isWordChar, if_neg hascii, RangeSet.contains_eq_false (hletters b hb) hlo hhi,
      RangeSet.contains_eq_false (hdigits b hb) hlo hhi,
      RangeSet.contains_eq_false (hmarks b hb) hlo hhi]
    rfl

/-! ## Names -/

theorem isWordChar_of_isIdentChar {c : Char} (h : isIdentChar c = true) : isWordChar c = true := by
  have hascii : c.toNat < 0x80 := by
    unfold isIdentChar Char.isAlphanum Char.isAlpha Char.isUpper Char.isLower Char.isDigit at h
    simp only [Bool.or_eq_true, Bool.and_eq_true, decide_eq_true_eq, beq_iff_eq,
      UInt32.le_iff_toNat_le, ge_iff_le] at h
    rcases h with ((⟨-, h⟩ | ⟨-, h⟩) | ⟨-, h⟩) | rfl
    · exact Nat.lt_of_le_of_lt h (by decide)
    · exact Nat.lt_of_le_of_lt h (by decide)
    · exact Nat.lt_of_le_of_lt h (by decide)
    · decide
  rwa [isWordChar, if_pos hascii]

theorem isBlank_of_isIdentChar {c : Char} (h : isIdentChar c = true) : isBlank c = false := by
  have hword := isWordChar_of_isIdentChar h
  by_cases hblank : isBlank c = true
  · rw [isWordChar_of_isBlank hblank] at hword
    cases hword
  · exact Bool.eq_false_iff.2 hblank

theorem ne_nil_of_isIdentifier {text : List Char} (h : isIdentifier text = true) : text ≠ [] := by
  rintro rfl
  cases h

theorem isIdentChar_of_mem {text : List Char} (h : isIdentifier text = true) {c : Char}
    (hc : c ∈ text) : isIdentChar c = true := by
  cases text with
  | nil => cases hc
  | cons d text =>
    rw [isIdentifier, Bool.and_eq_true, List.all_eq_true] at h
    rcases List.mem_cons.1 hc with rfl | hc
    · have hstart := h.1
      rw [isIdentStart, Bool.or_eq_true] at hstart
      rw [isIdentChar, Bool.or_eq_true, Char.isAlphanum, Bool.or_eq_true]
      exact hstart.imp_left .inl
    · exact h.2 c hc

theorem not_mem_of_isIdentifier {text : List Char} (h : isIdentifier text = true) {c : Char}
    (hc : isIdentChar c = false) : c ∉ text := by
  intro hmem
  rw [isIdentChar_of_mem h hmem] at hc
  cases hc

end Rollup.Text
