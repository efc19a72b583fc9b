/-
The shortest decimal that reads back as a given number: of the decimals in its rounding interval
one with the fewest digits, and of those the nearest. The interval reaches half way to either
neighbour and includes its ends when the mantissa is even.
-/
import Rollup.Number.Double

namespace Rollup.Double

/-- Which of two equally near decimals is taken. -/
inductive Tie where
  | even
  | away
  deriving DecidableEq, Repr

/-- Compares `a · 10 ^ p` with `b · 2 ^ q`. -/
def compareDecimalBinary (a : Nat) (p : Int) (b : Nat) (q : Int) : Ordering :=
  compare (a * Nat.pow 10 p.toNat * Nat.pow 2 (-q).toNat)
    (b * Nat.pow 2 q.toNat * Nat.pow 10 (-p).toNat)

/-- Four times the mantissa less the distance to the lower end of the rounding interval, which is
half as wide below a power of two. -/
def lowerQuarter (x : Double) : Nat :=
  if x.fractionField == 0 && 1 < x.exponentField then 4 * x.mantissa - 1 else 4 * x.mantissa - 2

/-- Whether `c · 10 ^ p` reads back as `x`. -/
def readsBack (x : Double) (c : Nat) (p : Int) : Bool :=
  let closed := x.mantissa % 2 == 0
  let q := x.exponent - 2
  let low := compareDecimalBinary c p x.lowerQuarter q
  let high := compareDecimalBinary c p (4 * x.mantissa + 2) q
  (low == .gt || (closed && low == .eq)) && (high == .lt || (closed && high == .eq))

/-- The absolute value as a ratio. -/
def ratio (x : Double) : Nat × Nat :=
  (x.mantissa * Nat.pow 2 x.exponent.toNat, Nat.pow 2 (-x.exponent).toNat)

/-- The number of decimal digits. -/
def digitCount (n : Nat) : Nat :=
  (Nat.toDigits 10 n).length

/-- The greatest `k` with `10 ^ k ≤ num / den`, for positive `num` and `den`. -/
def floorLog10 (num den : Nat) : Int :=
  let guess : Int := (digitCount num : Int) - digitCount den
  let fits : Bool :=
    if 0 ≤ guess then den * Nat.pow 10 guess.toNat ≤ num
    else den ≤ num * Nat.pow 10 (-guess).toNat
  if fits then guess else guess - 1

/-- The largest multiple of `10 ^ p` not above the number, in units of `10 ^ p`. -/
def gridFloor (x : Double) (p : Int) : Nat :=
  let (num, den) := x.ratio
  num * Nat.pow 10 (-p).toNat / (den * Nat.pow 10 p.toNat)

/-- Compares the distances of the number from the grid points `c` and `c + 1`: `lt` when `c` is
nearer. -/
def nearerBelow (x : Double) (c : Nat) (p : Int) : Ordering :=
  (compareDecimalBinary (2 * c + 1) p (2 * x.mantissa) x.exponent).swap

/-- The grid point of `10 ^ p` that reads back, the nearer of two. -/
def onGrid? (tie : Tie) (x : Double) (p : Int) : Option Nat :=
  let c := x.gridFloor p
  match x.readsBack c p, x.readsBack (c + 1) p with
  | true, true => match x.nearerBelow c p with
    | .lt => some c
    | .gt => some (c + 1)
    | .eq => if tie == .even && c % 2 == 0 then some c else some (c + 1)
  | true, false => some c
  | false, true => some (c + 1)
  | false, false => none

/-- The first of the grids with `n`, `n + 1`, … digits that holds a decimal that reads back. -/
def searchGrids (tie : Tie) (x : Double) (lead : Int) : (grids n : Nat) → Option (Nat × Int)
  | 0, _ => none
  | grids + 1, n =>
    match x.onGrid? tie (lead - n + 1) with
    | some c => some (c, lead - n + 1)
    | none => searchGrids tie x lead grids (n + 1)

/-- Takes zeros off the end of the digits. -/
def dropZeros : (fuel digits : Nat) → Int → Nat × Int
  | 0, c, p => (c, p)
  | fuel + 1, c, p => if c != 0 && c % 10 == 0 then dropZeros fuel (c / 10) (p + 1) else (c, p)

/-- Digits `c` and a power `p` such that `c · 10 ^ p` is the shortest decimal for the absolute
value of a finite number. Seventeen digits always suffice. -/
def shortest (tie : Tie) (x : Double) : Nat × Int :=
  if x.isZero then (0, 0)
  else
    let (num, den) := x.ratio
    let (c, p) := (searchGrids tie x (floorLog10 num den) 17 1).getD (0, 0)
    dropZeros (digitCount c) c p

end Rollup.Double
