/-
Numbers as text. A notation says where positional digits end and an exponent begins, and how whole
numbers, exponents and ties are written; the digits are always the shortest that read back.
-/
import Rollup.Number.Shortest

namespace Rollup.Double

/-- How numbers are written. -/
structure Format where
  /-- The least decimal exponent, and the first one too large, of a number written without an
  exponent; `none` when no number has one. -/
  positional : Option (Int × Int)
  /-- Whole positional numbers end in `.0`. -/
  wholePoint : Bool
  /-- Exponents that are not negative have a plus sign. -/
  plusSign : Bool
  tie : Tie

/-- Plain text: digits to the last place, and no point in a whole number. -/
def Format.plain : Format := ⟨none, false, false, .away⟩

/-- Diagnostics: a point in every positional number, exponents below `1e-4` and from `1e16`. -/
def Format.diagnostic : Format := ⟨some (-4, 16), true, false, .away⟩

/-- JSON: exponents below `1e-5` and from `1e+16`. -/
def Format.json : Format := ⟨some (-5, 16), true, true, .even⟩

/-- Digits `ds` with the point behind the first `whole` of them, filled up with zeros on either
side. -/
def positionalText (wholePoint : Bool) (ds : List Char) (whole : Int) : List Char :=
  let n : Int := ds.length
  if n ≤ whole then
    ds ++ List.replicate (whole - n).toNat '0' ++ (if wholePoint then ['.', '0'] else [])
  else if 0 < whole then ds.take whole.toNat ++ '.' :: ds.drop whole.toNat
  else '0' :: '.' :: List.replicate (-whole).toNat '0' ++ ds

/-- Digits with the point behind the first and the decimal exponent at the end. -/
def exponentText (plusSign : Bool) (ds : List Char) (e : Int) : List Char :=
  let head := match ds with
    | [] => []
    | [d] => [d]
    | d :: rest => d :: '.' :: rest
  head ++ 'e' :: (if plusSign && 0 ≤ e then ['+'] else []) ++ (toString e).toList

/-- The absolute value of a finite number as text. -/
def Format.magnitude (f : Format) (x : Double) : List Char :=
  let (c, p) := x.shortest f.tie
  let ds := Nat.toDigits 10 c
  let lead : Int := ds.length + p - 1
  let positional := c == 0 || match f.positional with
    | none => true
    | some (low, high) => low ≤ lead && lead < high
  if positional then positionalText f.wholePoint ds (lead + 1) else exponentText f.plusSign ds lead

/-- The number as text. -/
def Format.write (f : Format) (x : Double) : String :=
  if x.isNaN then "NaN"
  else
    let digits := if x.isFinite then f.magnitude x else ['i', 'n', 'f']
    String.ofList (if x.isNegative then '-' :: digits else digits)

end Rollup.Double
