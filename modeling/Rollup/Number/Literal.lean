/-
Numbers written as text by people: whole numbers of 64 bits, and decimals with an optional point
and exponent. Only ASCII digits count, and nothing may stand around them.
-/
import Rollup.Number.Double

namespace Rollup

/-- The value of a row of decimal digits. -/
def digitsValue (ds : List Char) : Nat :=
  ds.foldl (fun n d => 10 * n + (d.toNat - 48)) 0

/-- The value of one or more decimal digits and nothing else. -/
def readNat? (cs : List Char) : Option Nat :=
  if !cs.isEmpty && cs.all Char.isDigit then some (digitsValue cs) else none

/-- The value of the first `count` characters, when all are digits, and what follows them. -/
def readFixed? (count : Nat) (cs : List Char) : Option (Nat × List Char) :=
  if cs.length < count then none
  else (readNat? (cs.take count)).map fun n => (n, cs.drop count)

/-- An optional sign in front: whether it is a minus, and the rest. -/
def takeSign : List Char → Bool × List Char
  | '-' :: rest => (true, rest)
  | '+' :: rest => (false, rest)
  | cs => (false, cs)

/-- A whole number with an optional sign. -/
def readInt? (cs : List Char) : Option Int :=
  let (negative, rest) := takeSign cs
  (readNat? rest).map fun n => if negative then -n else n

/-- A whole number with an optional sign that fits a signed word. -/
def readInt64? (cs : List Char) : Option Int64 :=
  (readInt? cs).bind fun n =>
    if Int64.minValue.toInt ≤ n && n ≤ Int64.maxValue.toInt then some (Int64.ofInt n) else none

/-- The exponent after the mark `e` or `E`, zero when there is none. -/
def readExponent? : List Char → Option Int
  | [] => some 0
  | c :: rest => if c == 'e' || c == 'E' then readInt? rest else none

/-- A decimal number without sign: digits with an optional point, at least one digit, and an
optional exponent; or the words for infinity and not-a-number in any case. -/
def readMagnitude? (negative : Bool) (cs : List Char) : Option Double :=
  match String.ofList (cs.map Char.toLower) with
  | "inf" | "infinity" => some (Double.withSign negative .infinity)
  | "nan" => some (Double.withSign negative .nan)
  | _ =>
    let whole := cs.takeWhile Char.isDigit
    let rest := cs.dropWhile Char.isDigit
    let (fraction, tail) := match rest with
      | '.' :: r => (r.takeWhile Char.isDigit, r.dropWhile Char.isDigit)
      | r => ([], r)
    if whole.isEmpty && fraction.isEmpty then none
    else (readExponent? tail).map fun e =>
      Double.ofDecimal negative (digitsValue (whole ++ fraction)) (e - fraction.length)

/-- A decimal number with an optional sign, rounded to the nearest representable one. -/
def readDouble? (cs : List Char) : Option Double :=
  let (negative, rest) := takeSign cs
  readMagnitude? negative rest

end Rollup
