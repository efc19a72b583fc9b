/-
The values of TOML that are one word: truth values, numbers, dates and times. A date or time is
checked and kept as a record with its text, since nothing that is read from TOML here asks for one.
-/
import Rollup.Calendar.Date
import Rollup.Datum.Basic
import Rollup.Number.Literal
import Rollup.Text.Split

namespace Rollup.Toml

/-! ## Numbers -/

/-- The digits without the underscores that may stand between two of them. -/
def plainDigits? (isDigit : Char → Bool) : List Char → Option (List Char)
  | [] => none
  | [c] => if isDigit c then some [c] else none
  | c :: '_' :: rest =>
    if isDigit c then (plainDigits? isDigit rest).map (c :: ·) else none
  | c :: rest => if isDigit c then (plainDigits? isDigit rest).map (c :: ·) else none

/-- What a digit is worth; letters go on after nine, in either case. -/
def digitValue (c : Char) : Nat :=
  if c.isDigit then c.toNat - 48 else c.toLower.toNat - 87

/-- Whether a character is a digit in a base. -/
def isDigitOf (base : Nat) (c : Char) : Bool :=
  c.isAlphanum && digitValue c < base

/-- A whole number in another base than ten. -/
def based? (base : Nat) (cs : List Char) : Option Int :=
  (plainDigits? (isDigitOf base) cs).map fun ds =>
    ds.foldl (fun n d => base * n + digitValue d) 0

/-- Decimal digits without a needless zero in front. -/
def wholePart? (cs : List Char) : Option (List Char) := do
  let ds ← plainDigits? Char.isDigit cs
  if ds.length > 1 && ds.head? == some '0' then none else some ds

/-- A whole number. -/
def integer? : List Char → Option Int
  | '0' :: 'x' :: cs => based? 16 cs
  | '0' :: 'o' :: cs => based? 8 cs
  | '0' :: 'b' :: cs => based? 2 cs
  | cs => do
    let (negative, rest) := takeSign cs
    let n := digitsValue (← wholePart? rest)
    some (if negative then -n else n)

/-- A decimal number: a whole part, then a fraction or an exponent or both. -/
def decimal? (cs : List Char) : Option Double := do
  let (negative, rest) := takeSign cs
  if rest == "inf".toList then some (Double.withSign negative .infinity)
  else if rest == "nan".toList then some (Double.withSign negative .nan)
  else
    let isMark (c : Char) : Bool := c == 'e' || c == 'E'
    let number := rest.takeWhile (!isMark ·)
    let whole ← wholePart? (number.takeWhile (· != '.'))
    let fraction ← match number.dropWhile (· != '.') with
      | [] => some []
      | _ :: ds => plainDigits? Char.isDigit ds
    let e ← match rest.dropWhile (!isMark ·) with
      | [] => some 0
      | _ :: es => do
        let (below, es) := takeSign es
        let n := digitsValue (← plainDigits? Char.isDigit es)
        some (if below then -(n : Int) else n)
    let x := Double.ofDecimal negative (digitsValue (whole ++ fraction)) (e - fraction.length)
    if x.isFinite then some x else none

/-! ## Dates and times -/

/-- A number of a fixed count of digits, no larger than a bound. -/
def field? (count largest : Nat) (cs : List Char) : Option (Nat × List Char) := do
  let (n, rest) ← readFixed? count cs
  if n ≤ largest then some (n, rest) else none

/-- What follows a date. -/
def date? (cs : List Char) : Option (List Char) := do
  let (year, rest) ← field? 4 9999 cs
  let (month, rest) ← field? 2 12 (← Text.afterChar? '-' rest)
  if month == 0 then none
  let (day, rest) ← field? 2 (daysIn (isLeap year) month) (← Text.afterChar? '-' rest)
  if day == 0 then none else some rest

/-- What follows a time; the seconds may be left out. -/
def time? (cs : List Char) : Option (List Char) := do
  let (_, rest) ← field? 2 23 cs
  let (_, rest) ← field? 2 59 (← Text.afterChar? ':' rest)
  match rest with
  | ':' :: rest => do
    let (_, rest) ← field? 2 60 rest
    match rest with
    | '.' :: rest =>
      if (rest.takeWhile Char.isDigit).isEmpty then none else some (rest.dropWhile Char.isDigit)
    | rest => some rest
  | rest => some rest

/-- Whether the text is an offset from universal time, or nothing. -/
def isOffset : List Char → Bool
  | [] => true
  | [c] => c == 'Z' || c == 'z'
  | c :: rest => (c == '+' || c == '-') && ((field? 2 23 rest).bind fun (_, rest) =>
      (Text.afterChar? ':' rest).bind (field? 2 59)).any (·.2.isEmpty)

/-- Whether the text is a date, a time, or both with or without an offset. -/
def isDatetime (cs : List Char) : Bool :=
  match date? cs with
  | some [] => true
  | some (c :: rest) => (c == 'T' || c == 't' || c == ' ') && (time? rest).any isOffset
  | none => (time? cs).any (·.isEmpty)

/-! ## Words -/

/-- The value a word stands for. A whole number has at most 128 bits. -/
def scalar? (cs : List Char) : Option Datum :=
  if cs == "true".toList then some (.bool true)
  else if cs == "false".toList then some (.bool false)
  else match integer? cs with
    | some n => if -(Nat.pow 2 127 : Int) ≤ n && n < Nat.pow 2 128 then some (.int n) else none
    | none => match decimal? cs with
      | some x => some (.real x)
      | none =>
        if isDatetime cs then some (.record [("datetime", .text (String.ofList cs))]) else none

end Rollup.Toml
