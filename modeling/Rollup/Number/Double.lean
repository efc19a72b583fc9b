/-
Binary floating point numbers of 64 bits, held as their bits so that every operation is exact
integer arithmetic. A finite number is `mantissa · 2 ^ exponent`, and a ratio is rounded to the
nearest number, a tie to the even mantissa.
-/

namespace Rollup

/-- A binary64 number: a sign bit, eleven exponent bits and fifty-two fraction bits. -/
structure Double where
  bits : UInt64
  deriving DecidableEq, Repr

namespace Double

/-- The sign bit, which negative zero has too. -/
def isNegative (x : Double) : Bool :=
  x.bits >>> 63 == 1

/-- The eleven bits of the exponent. -/
def exponentField (x : Double) : Nat :=
  ((x.bits >>> 52) &&& 0x7FF).toNat

/-- The fifty-two bits of the fraction. -/
def fractionField (x : Double) : Nat :=
  (x.bits &&& 0xFFFFFFFFFFFFF).toNat

/-- Neither an infinity nor a NaN. -/
def isFinite (x : Double) : Bool :=
  x.exponentField != 0x7FF

/-- The greatest exponent with a fraction. -/
def isNaN (x : Double) : Bool :=
  x.exponentField == 0x7FF && x.fractionField != 0

/-- Zero of either sign. -/
def isZero (x : Double) : Bool :=
  x.exponentField == 0 && x.fractionField == 0

/-- The integer part of `mantissa · 2 ^ exponent`, the absolute value of a finite number. -/
def mantissa (x : Double) : Nat :=
  if x.exponentField == 0 then x.fractionField else 0x10000000000000 + x.fractionField

/-- The exponent of `mantissa · 2 ^ exponent`. -/
def exponent (x : Double) : Int :=
  if x.exponentField == 0 then -1074 else (x.exponentField : Int) - 1075

/-- Positive infinity. -/
def infinity : Double := ⟨0x7FF0000000000000⟩

/-- The positive quiet NaN without a payload. -/
def nan : Double := ⟨0x7FF8000000000000⟩

/-- Positive zero. -/
def zero : Double := ⟨0⟩

/-- The number with the given sign. -/
def withSign (negative : Bool) (x : Double) : Double :=
  if negative then ⟨x.bits ||| 0x8000000000000000⟩ else x

/-- The integer nearest to `num / den`, a tie to the even one. -/
def nearestEven (num den : Nat) : Nat :=
  let q := num / den
  let r := num % den
  if 2 * r < den then q else if den < 2 * r then q + 1 else if q % 2 == 0 then q else q + 1

/-- The greatest `k` with `2 ^ k ≤ num / den`, for positive `num` and `den`. -/
def floorLog2 (num den : Nat) : Int :=
  let guess : Int := (Nat.log2 num : Int) - Nat.log2 den
  let fits : Bool :=
    if 0 ≤ guess then den * Nat.pow 2 guess.toNat ≤ num
    else den ≤ num * Nat.pow 2 (-guess).toNat
  if fits then guess else guess - 1

/-- The number nearest to `num / den`. -/
def ofRatio (negative : Bool) (num den : Nat) : Double :=
  if num == 0 then withSign negative zero
  else
    let q : Int := max (floorLog2 num den - 52) (-1074)
    let m := if 0 ≤ q then nearestEven num (den * Nat.pow 2 q.toNat)
      else nearestEven (num * Nat.pow 2 (-q).toNat) den
    let code := (q + 1074).toNat * 0x10000000000000 + m
    withSign negative (if code < 0x7FF0000000000000 then ⟨UInt64.ofNat code⟩ else infinity)

/-- The number nearest to `digits · 10 ^ power`. Powers so far out that the result is zero or
infinite for any fitting digits are not raised. -/
def ofDecimal (negative : Bool) (digits : Nat) (power : Int) : Double :=
  let size : Int := (Nat.log2 digits : Int) / 3 + 1 + power
  if digits == 0 || size < -400 then withSign negative zero
  else if power > 400 then withSign negative infinity
  else if 0 ≤ power then ofRatio negative (digits * Nat.pow 10 power.toNat) 1
  else ofRatio negative digits (Nat.pow 10 (-power).toNat)

/-- The number nearest to an integer. -/
def ofInt (n : Int) : Double :=
  ofRatio (n < 0) n.natAbs 1

/-- The absolute value with its fraction cut off. -/
def truncAbs (x : Double) : Nat :=
  if 0 ≤ x.exponent then x.mantissa * Nat.pow 2 x.exponent.toNat
  else x.mantissa / Nat.pow 2 (-x.exponent).toNat

/-- Whether a finite number has no fractional part. -/
def isWhole (x : Double) : Bool :=
  x.isFinite && (0 ≤ x.exponent || x.mantissa % Nat.pow 2 (-x.exponent).toNat == 0)

/-- The whole part as a signed word; beyond its range the nearest end, and zero for a NaN. -/
def toInt64 (x : Double) : Int64 :=
  if x.isNaN then 0
  else
    let beyond := !x.isFinite || Nat.pow 2 63 ≤ x.truncAbs
    if x.isNegative then (if beyond then Int64.minValue else Int64.ofInt (-x.truncAbs))
    else (if beyond then Int64.maxValue else Int64.ofInt x.truncAbs)

end Double

end Rollup
