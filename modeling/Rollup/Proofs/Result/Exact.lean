/-
Numbers stay what they are. An integer or a finite number that a database returns is worth the same
as a cell of a result, unless it is an integer in a column of decimals: there it is the nearest
floating point number.
-/
import Rollup.Proofs.Number.Rounding
import Rollup.Result.Hydration

namespace Rollup

/-- The rational number that a cell is worth. -/
def Cell.rational? : Cell → Option ℚ
  | integer n => some (n.toInt : ℚ)
  | decimal x => if x.isFinite then some x.value else none
  | _ => none

theorem Cell.rational?_decimal {x : Double} (h : x.isFinite = true) :
    (decimal x).rational? = some x.value :=
  if_pos h

namespace Hydration

variable {type : ValueType} {x : Double}

theorem ofPlain_int (hboolean : type ≠ .boolean) (hdecimal : type ≠ .decimal) (n : Int64) :
    ofPlain type (.int n) = .ok (.integer n) := by
  cases type with
  | boolean => exact absurd rfl hboolean
  | decimal => exact absurd rfl hdecimal
  | _ => rfl

theorem ofPlain_real_of_word (h : type = .integer ∨ type = .id) (x : Double) :
    ofPlain type (.real x) = .ok (if x.isWhole then .integer x.toInt64 else .decimal x) := by
  rcases h with rfl | rfl <;> rfl

theorem ofPlain_real_of_not_word (h : ¬(type = .integer ∨ type = .id)) (x : Double) :
    ofPlain type (.real x) = .ok (.decimal x) := by
  cases type with
  | integer => exact absurd (.inl rfl) h
  | id => exact absurd (.inr rfl) h
  | _ => rfl

/-- A finite number stays one, or becomes the word that is worth the same. -/
theorem exists_ofPlain_real (hfinite : x.isFinite = true)
    (hrange : type = .integer ∨ type = .id → ∀ k : ℤ, x.value = k → -2 ^ 63 ≤ k ∧ k < 2 ^ 63) :
    ∃ cell, ofPlain type (.real x) = .ok cell ∧ cell.rational? = some x.value := by
  by_cases htype : type = .integer ∨ type = .id
  · rw [ofPlain_real_of_word htype]
    split
    · rename_i hwhole
      obtain ⟨k, hk⟩ := (Double.isWhole_iff hfinite).1 hwhole
      obtain ⟨hlow, hhigh⟩ := hrange htype k hk
      refine ⟨_, rfl, congrArg some (Double.toInt_toInt64 hwhole ?_ ?_)⟩
      · rw [hk]
        exact_mod_cast hlow
      · rw [hk]
        exact_mod_cast hhigh
    · exact ⟨_, rfl, Cell.rational?_decimal hfinite⟩
  · rw [ofPlain_real_of_not_word htype]
    exact ⟨_, rfl, Cell.rational?_decimal hfinite⟩

theorem log2_natAbs_lt (n : Int64) : n.toInt.natAbs.log2 < 1023 := by
  have hlow := n.le_toInt
  have hhigh := n.toInt_lt
  rcases eq_or_ne n.toInt.natAbs 0 with h | h
  · rw [h]
    decide
  · have hlog : n.toInt.natAbs.log2 < 64 := (Nat.log2_lt h).2 (by omega)
    omega

end Hydration

/-- Without declared values and times, the type of the column decides. -/
theorem OutputColumn.hydrate_eq_ofPlain {c : OutputColumn} (hvalues : c.values = none)
    (hrole : c.role ≠ .timeDimension) (cell : RawCell) (h : cell ≠ .null) :
    c.hydrate cell = Hydration.ofPlain c.valueType cell := by
  rw [hydrate, if_neg (by rwa [beq_iff_eq]), hvalues]
  exact if_neg (by rwa [beq_iff_eq])

/-- In a column without declared values that is neither a time dimension nor of truth values, every
integer and every finite number is hydrated. An integer stays what it is, unless the column is one
of decimals: then it becomes the nearest floating point number, which is the integer itself whenever
one is, and so up to `2 ^ 53`. A finite number stays what it is, where it is not to become a word of
sixty-four bits that it does not fit. -/
theorem OutputColumn.hydrate_numbers {c : OutputColumn} (hvalues : c.values = none)
    (hrole : c.role ≠ .timeDimension) (htype : c.valueType ≠ .boolean) :
    (∀ n : Int64, ∃ cell, c.hydrate (.int n) = .ok cell ∧
      if c.valueType = .decimal then
        ∃ x, cell = .decimal x ∧ x.Nearest n.toInt ∧
          (∀ y : Double, y.isFinite = true → y.value = n.toInt → x.value = n.toInt) ∧
          (n.toInt.natAbs ≤ 2 ^ 53 → x.value = n.toInt)
      else cell.rational? = some (n.toInt : ℚ)) ∧
    ∀ x : Double, x.isFinite = true →
      (c.valueType = .integer ∨ c.valueType = .id →
        ∀ k : ℤ, x.value = k → -2 ^ 63 ≤ k ∧ k < 2 ^ 63) →
      ∃ cell, c.hydrate (.real x) = .ok cell ∧ cell.rational? = some x.value := by
  constructor
  · intro n
    rw [hydrate_eq_ofPlain hvalues hrole (.int n) nofun]
    split
    · rename_i hdecimal
      have hnearest := Double.ofInt_nearest (Hydration.log2_natAbs_lt n)
      refine ⟨.decimal (.ofInt n.toInt), by rw [hdecimal]; rfl, _, rfl, hnearest,
        fun y hy heq => ?_, Double.value_ofInt_of_le⟩
      rw [← heq] at hnearest ⊢
      exact hnearest.value_eq hy
    · rename_i hdecimal
      exact ⟨.integer n, Hydration.ofPlain_int htype hdecimal n, rfl⟩
  · intro x hfinite hrange
    rw [hydrate_eq_ofPlain hvalues hrole (.real x) nofun]
    exact Hydration.exists_ofPlain_real hfinite hrange

/-- A column of counts. -/
def visitsColumn : OutputColumn :=
  { name := "visits", label := "visits", role := .metric, valueType := .integer }

/-- A column of decimals. -/
def totalColumn : OutputColumn :=
  { name := "total", label := "total", role := .metric, valueType := .decimal }

/-- A number of visits that no floating point number is stays what it is, and four, as a floating
point number, is four visits. -/
theorem OutputColumn.hydrate_numbers_fourVisits :
    visitsColumn.values = none ∧ visitsColumn.role ≠ .timeDimension ∧
      visitsColumn.valueType ≠ .boolean ∧
      (∃ cell, visitsColumn.hydrate (.int 9007199254740993) = .ok cell ∧
        cell.rational? = some 9007199254740993) ∧
      ∃ cell, visitsColumn.hydrate (.real ⟨0x4010000000000000⟩) = .ok cell ∧
        cell.rational? = some 4 := by
  have hfour : (⟨0x4010000000000000⟩ : Double).value = 4 := by
    have hnegative : (⟨0x4010000000000000⟩ : Double).isNegative = false := by decide
    have hmantissa : (⟨0x4010000000000000⟩ : Double).mantissa = 2 ^ 52 := by decide
    have hexponent : (⟨0x4010000000000000⟩ : Double).exponent = -50 := by decide
    rw [Double.value, hnegative, hmantissa, hexponent]
    norm_num
  have hrole : visitsColumn.role ≠ .timeDimension := by decide
  have htype : visitsColumn.valueType ≠ .boolean := by decide
  obtain ⟨hint, hreal⟩ := OutputColumn.hydrate_numbers (c := visitsColumn) rfl hrole htype
  rw [← hfour]
  refine ⟨rfl, hrole, htype, hint 9007199254740993, hreal _ (by decide) fun _ k hk => ?_⟩
  rw [hfour] at hk
  have hk : k = 4 := by exact_mod_cast hk.symm
  omega

/-- The first integer that no floating point number is becomes, as a decimal, the one before. -/
theorem OutputColumn.hydrate_rounds :
    ∃ x, totalColumn.hydrate (.int 9007199254740993) = .ok (.decimal x) ∧ x.isFinite = true ∧
      x.value = 9007199254740992 ∧ x.value ≠ ((9007199254740993 : Int64).toInt : ℚ) := by
  have hvalue : (⟨0x4340000000000000⟩ : Double).value = 9007199254740992 := by
    have hnegative : (⟨0x4340000000000000⟩ : Double).isNegative = false := by decide
    have hmantissa : (⟨0x4340000000000000⟩ : Double).mantissa = 2 ^ 52 := by decide
    have hexponent : (⟨0x4340000000000000⟩ : Double).exponent = 1 := by decide
    rw [Double.value, hnegative, hmantissa, hexponent]
    norm_num
  have hint : (9007199254740993 : Int64).toInt = 9007199254740993 := by decide
  refine ⟨⟨0x4340000000000000⟩, by decide, by decide, hvalue, ?_⟩
  rw [hvalue, hint]
  norm_num

end Rollup
