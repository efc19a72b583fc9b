/-
Reading JSON text. The grammar is strict: no comments, no trailing commas, nothing but blanks after
the value, and at most 127 containers inside one another.

A number without point and exponent is an integer when it fits a signed or unsigned word. Any other
number is its leading digits, as many as fit a word, rounded to a binary64 number and then scaled
by a rounded power of ten; one too large for that becomes infinite, which no reader of numbers
accepts.
-/
import Rollup.Datum.Basic
import Rollup.Number.Literal

namespace Rollup.Json

/-- The four characters that may stand between tokens. -/
def isSpace (c : Char) : Bool :=
  c == ' ' || c == '\t' || c == '\n' || c == '\r'

/-- The text without the space it begins with. -/
def skipSpace (cs : List Char) : List Char :=
  cs.dropWhile isSpace

/-! ## Numbers -/

/-- `10 ^ k`, rounded. -/
def powerOfTen (k : Nat) : Double :=
  Double.ofDecimal false 1 k

/-- The product of two finite numbers, rounded. -/
def scaleUp (x y : Double) : Double :=
  Double.ofRatio false
    (x.mantissa * y.mantissa * Nat.pow 2 (x.exponent + y.exponent).toNat)
    (Nat.pow 2 (-(x.exponent + y.exponent)).toNat)

/-- The quotient of two finite numbers, rounded. -/
def scaleDown (x y : Double) : Double :=
  Double.ofRatio false
    (x.mantissa * Nat.pow 2 (x.exponent - y.exponent).toNat)
    (y.mantissa * Nat.pow 2 (y.exponent - x.exponent).toNat)

/-- `digits · 10 ^ power`, where the digits are rounded before they are scaled. A power below -308
is divided out in two steps. -/
def scaled (digits : Nat) (power : Int) : Double :=
  let x := Double.ofInt digits
  if digits == 0 then .zero
  else if 308 < power then .infinity
  else if 0 ≤ power then scaleUp x (powerOfTen power.toNat)
  else if -308 ≤ power then scaleDown x (powerOfTen (-power).toNat)
  else if -616 ≤ power then scaleDown (scaleDown x (powerOfTen 308)) (powerOfTen (-power - 308).toNat)
  else .zero

/-- The longest start of the digits whose value fits an unsigned word, with the number of digits
left out. -/
def leadingWord (value : Nat) : List Char → Nat × Nat
  | [] => (value, 0)
  | d :: rest =>
    let next := 10 * value + (d.toNat - 48)
    if next < UInt64.size then leadingWord next rest else (value, rest.length + 1)

/-- The number with these digits before the point, these behind it, and this exponent. -/
def realOf (whole fraction : List Char) (e : Int) : Double :=
  let (w, wholeCut) := leadingWord 0 whole
  let (digits, fractionCut) := leadingWord w fraction
  scaled digits (wholeCut - (fraction.length - fractionCut : Nat) + e)

/-- Digits after a mark that needs at least one. -/
def someDigits? (cs : List Char) : Option (List Char × List Char) :=
  let ds := cs.takeWhile Char.isDigit
  if ds.isEmpty then none else some (ds, cs.dropWhile Char.isDigit)

/-- An exponent, when one follows. -/
def exponent? : List Char → Option (Option Int × List Char)
  | c :: rest =>
    if c == 'e' || c == 'E' then
      let (negative, rest) := takeSign rest
      (someDigits? rest).map fun (ds, rest) =>
        let e : Int := digitsValue ds
        (some (if negative then -e else e), rest)
    else some (none, c :: rest)
  | [] => some (none, [])

/-- A fraction, when one follows. -/
def fraction? : List Char → Option (Option (List Char) × List Char)
  | '.' :: rest => (someDigits? rest).map fun (ds, rest) => (some ds, rest)
  | rest => some (none, rest)

/-- A number, its minus sign already taken. -/
def number? (negative : Bool) (cs : List Char) : Option (Datum × List Char) := do
  let (whole, rest) ← someDigits? cs
  if whole.length > 1 && whole.head? == some '0' then none
  let (fraction, rest) ← fraction? rest
  let (e, rest) ← exponent? rest
  let n := digitsValue whole
  let real := Double.withSign negative (realOf whole (fraction.getD []) (e.getD 0))
  let isInt := fraction.isNone && e.isNone &&
    (if negative then n != 0 && n ≤ Nat.pow 2 63 else n < UInt64.size)
  some (if isInt then .int (if negative then -n else n) else .real real, rest)

/-! ## Strings -/

/-- What a hexadecimal digit is worth, in either case. -/
def hexDigit? (c : Char) : Option Nat :=
  if c.isDigit then some (c.toNat - 48)
  else if 'a' ≤ c && c ≤ 'f' then some (c.toNat - 87)
  else if 'A' ≤ c && c ≤ 'F' then some (c.toNat - 55)
  else none

/-- The value of four hexadecimal digits. -/
def hex4? : List Char → Option (Nat × List Char)
  | a :: b :: c :: d :: rest => do
    some (4096 * (← hexDigit? a) + 256 * (← hexDigit? b) + 16 * (← hexDigit? c) + (← hexDigit? d),
      rest)
  | _ => none

/-- The character after a backslash that stands for one character. -/
def simpleEscape? : Char → Option Char
  | '"' => some '"'
  | '\\' => some '\\'
  | '/' => some '/'
  | 'b' => some '\x08'
  | 'f' => some '\x0c'
  | 'n' => some '\n'
  | 'r' => some '\r'
  | 't' => some '\t'
  | _ => none

/-- The code point after `\u`. A high surrogate needs its low one in a second escape, and a low one
cannot stand alone. -/
def unicodeEscape? (cs : List Char) : Option (Char × List Char) := do
  let (n, rest) ← hex4? cs
  if n < 0xD800 || 0xDFFF < n then some (Char.ofNat n, rest)
  else if 0xDBFF < n then none
  else match rest with
    | '\\' :: 'u' :: rest => do
      let (m, rest) ← hex4? rest
      if m < 0xDC00 || 0xDFFF < m then none
      else some (Char.ofNat (0x10000 + 1024 * (n - 0xD800) + (m - 0xDC00)), rest)
    | _ => none

/-- The characters up to the closing quote, the opening one already taken. -/
def stringBody? : (fuel : Nat) → List Char → Option (List Char × List Char)
  | 0, _ => none
  | _ + 1, [] => none
  | _ + 1, '"' :: rest => some ([], rest)
  | fuel + 1, '\\' :: 'u' :: rest => do
    let (c, rest) ← unicodeEscape? rest
    let (cs, rest) ← stringBody? fuel rest
    some (c :: cs, rest)
  | fuel + 1, '\\' :: e :: rest => do
    let c ← simpleEscape? e
    let (cs, rest) ← stringBody? fuel rest
    some (c :: cs, rest)
  | fuel + 1, c :: rest => do
    if c == '\\' || c.toNat < 0x20 then none
    let (cs, rest) ← stringBody? fuel rest
    some (c :: cs, rest)

/-- A string, its opening quote already taken, and what follows. -/
def string? (cs : List Char) : Option (String × List Char) :=
  (stringBody? (cs.length + 1) cs).map fun (s, rest) => (String.ofList s, rest)

/-! ## Values -/

/-- What follows a literal word. -/
def word? (word : List Char) (d : Datum) (cs : List Char) : Option (Datum × List Char) :=
  if word.isPrefixOf cs then some (d, cs.drop word.length) else none

mutual

/-- One value. `depth` is the number of containers that may still be opened. -/
def value? : (fuel depth : Nat) → List Char → Option (Datum × List Char)
  | 0, _, _ => none
  | fuel + 1, depth, cs =>
    match skipSpace cs with
    | '"' :: rest => (string? rest).map fun (s, rest) => (.text s, rest)
    | '[' :: rest => if depth == 0 then none else match skipSpace rest with
      | ']' :: rest => some (.list [], rest)
      | rest => (items? fuel (depth - 1) rest).map fun (ds, rest) => (.list ds, rest)
    | '{' :: rest => if depth == 0 then none else match skipSpace rest with
      | '}' :: rest => some (.record [], rest)
      | rest => (members? fuel (depth - 1) rest).map fun (ms, rest) => (.record ms, rest)
    | 'n' :: rest => word? "ull".toList .null rest
    | 't' :: rest => word? "rue".toList (.bool true) rest
    | 'f' :: rest => word? "alse".toList (.bool false) rest
    | '-' :: rest => number? true rest
    | rest => number? false rest

/-- The items up to the closing bracket. -/
def items? : (fuel depth : Nat) → List Char → Option (List Datum × List Char)
  | 0, _, _ => none
  | fuel + 1, depth, cs => do
    let (d, rest) ← value? fuel depth cs
    match skipSpace rest with
    | ']' :: rest => some ([d], rest)
    | ',' :: rest => do
      let (ds, rest) ← items? fuel depth rest
      some (d :: ds, rest)
    | _ => none

/-- The members up to the closing brace. -/
def members? : (fuel depth : Nat) → List Char → Option (List (String × Datum) × List Char)
  | 0, _, _ => none
  | fuel + 1, depth, cs => do
    let ('"' :: rest) := skipSpace cs | none
    let (k, rest) ← string? rest
    let (':' :: rest) := skipSpace rest | none
    let (d, rest) ← value? fuel depth rest
    match skipSpace rest with
    | '}' :: rest => some ([(k, d)], rest)
    | ',' :: rest => do
      let (ms, rest) ← members? fuel depth rest
      some ((k, d) :: ms, rest)
    | _ => none

end

/-- The number of containers that may stand inside one another. -/
def maxDepth : Nat := 127

/-- The value a whole text stands for. -/
def read? (s : String) : Option Datum :=
  let cs := s.toList
  match value? (2 * cs.length + 2) maxDepth cs with
  | some (d, rest) => if (skipSpace rest).isEmpty then some d else none
  | none => none

end Rollup.Json
