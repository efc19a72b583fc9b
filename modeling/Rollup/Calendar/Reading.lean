/-
Reading timestamps. A pattern says which numbers and marks follow one another; it is lenient about
leading zeros and blanks. Text of the standard internet form, which has an offset from universal
time, is read strictly and comes first. Text that fits no pattern may still be one of the short
forms in which buckets are shown.
-/
import Rollup.Calendar.Timestamp
import Rollup.Number.Literal
import Rollup.Text.Blank
import Rollup.Text.Split

namespace Rollup.Timestamp

/-! ## Patterns -/

/-- A part of a pattern. -/
inductive Part where
  | year
  | month
  | day
  | hour
  | minute
  | second
  /-- A point and digits, or nothing. -/
  | fraction
  /-- Any number of blanks. -/
  | blanks
  | mark (c : Char)
  deriving DecidableEq, Repr

/-- The numbers a text gives. -/
structure Numbers where
  year : Int := 0
  month : Nat := 0
  day : Nat := 0
  hour : Nat := 0
  minute : Nat := 0
  second : Nat := 0
  nano : Nat := 0
  deriving DecidableEq, Repr

/-- The first one to `most` digits. -/
def digits? (most : Nat) (cs : List Char) : Option (List Char × List Char) :=
  let ds := (cs.take most).takeWhile Char.isDigit
  if ds.isEmpty then none else some (ds, cs.drop ds.length)

/-- The number of one or two digits after any blanks. -/
def number? (cs : List Char) : Option (Nat × List Char) :=
  (digits? 2 (cs.dropWhile Text.isBlank)).map fun (ds, rest) => (digitsValue ds, rest)

/-- A year of up to four digits, or of any number after a sign. -/
def year? (cs : List Char) : Option (Int × List Char) :=
  match cs.dropWhile Text.isBlank with
  | '-' :: cs => (digits? cs.length cs).map fun (ds, rest) => (-(digitsValue ds : Int), rest)
  | '+' :: cs => (digits? cs.length cs).map fun (ds, rest) => ((digitsValue ds : Int), rest)
  | cs => (digits? 4 cs).map fun (ds, rest) => ((digitsValue ds : Int), rest)

/-- The digits after a point as nanoseconds; those after the ninth are passed over. -/
def nano? (cs : List Char) : Option (Nat × List Char) :=
  (digits? 9 cs).map fun (ds, rest) =>
    (digitsValue ds * Nat.pow 10 (9 - ds.length), rest.dropWhile Char.isDigit)

/-- A fraction of a second, when one follows. -/
def fraction? : List Char → Option (Nat × List Char)
  | '.' :: cs => nano? cs
  | cs => some (0, cs)

/-- Reads one part. -/
def Part.read? (n : Numbers) (cs : List Char) : Part → Option (Numbers × List Char)
  | .year => (year? cs).map fun (k, rest) => ({ n with year := k }, rest)
  | .month => (number? cs).map fun (k, rest) => ({ n with month := k }, rest)
  | .day => (number? cs).map fun (k, rest) => ({ n with day := k }, rest)
  | .hour => (number? cs).map fun (k, rest) => ({ n with hour := k }, rest)
  | .minute => (number? cs).map fun (k, rest) => ({ n with minute := k }, rest)
  | .second => (number? cs).map fun (k, rest) => ({ n with second := k }, rest)
  | .fraction => (fraction? cs).map fun (k, rest) => ({ n with nano := k }, rest)
  | .blanks => some (n, cs.dropWhile Text.isBlank)
  | .mark c => (Text.afterChar? c cs).map fun rest => (n, rest)

/-- The numbers of a text that fits a pattern from its start to its end. -/
def match? (n : Numbers) (cs : List Char) : (pattern : List Part) → Option Numbers
  | [] => if cs.isEmpty then some n else none
  | p :: pattern => (p.read? n cs).bind fun (n, rest) => match? n rest pattern

/-- The timestamp the numbers give. -/
def Numbers.timestamp? (n : Numbers) : Option Timestamp :=
  (Date.of? n.year n.month n.day).bind fun d => of? d n.hour n.minute n.second n.nano

/-- The timestamp of a text that fits a pattern. -/
def readAs? (pattern : List Part) (cs : List Char) : Option Timestamp :=
  (match? {} cs pattern).bind Numbers.timestamp?

/-- A date: year, month and day with dashes between. -/
def datePattern : List Part :=
  [.year, .mark '-', .month, .mark '-', .day]

/-- A date and a time down to the minute. -/
def minutePattern (separator : Part) : List Part :=
  datePattern ++ [separator, .hour, .mark ':', .minute]

/-- A date and a time down to fractions of a second. -/
def secondPattern (separator : Part) : List Part :=
  minutePattern separator ++ [.mark ':', .second, .fraction]

/-- The date and time patterns, in the order they are tried. -/
def patterns : List (List Part) :=
  [secondPattern .blanks, secondPattern (.mark 'T'), minutePattern .blanks,
    minutePattern (.mark 'T')]

/-- The pattern of stored timestamps: blanks may stand after every number. -/
def storedPattern : List Part :=
  [.year, .blanks, .mark '-', .month, .blanks, .mark '-', .day, .blanks, .mark 'T', .hour, .blanks,
    .mark ':', .minute, .blanks, .mark ':', .second, .fraction, .blanks]

/-- Reads a stored timestamp. -/
def ofText? (s : String) : Option Timestamp :=
  readAs? storedPattern s.toList

/-! ## The internet form -/

/-- The seconds of an offset from universal time, with nothing behind it. -/
def offset? : List Char → Option Int
  | [] => none
  | c :: rest =>
    if (c == 'Z' || c == 'z') && rest.isEmpty then some 0
    else if c == '+' || c == '-' || c == '\u2212' then do
      let (hours, rest) ← readFixed? 2 rest
      let (minutes, rest) ← readFixed? 2 (← Text.afterChar? ':' rest)
      let seconds : Int := 3600 * hours + 60 * minutes
      if hours < 24 && minutes < 60 && rest.isEmpty then
        some (if c == '+' then seconds else -seconds)
      else none
    else none

/-- Reads a date, a time and an offset, all in full, as universal time. -/
def readInternet? (cs : List Char) : Option Timestamp := do
  let (year, rest) ← readFixed? 4 cs
  let (month, rest) ← readFixed? 2 (← Text.afterChar? '-' rest)
  let (day, rest) ← readFixed? 2 (← Text.afterChar? '-' rest)
  match rest with
  | [] => none
  | c :: rest =>
    if !(c == 'T' || c == 't' || c == ' ') then none
    let (hour, rest) ← readFixed? 2 rest
    let (minute, rest) ← readFixed? 2 (← Text.afterChar? ':' rest)
    let (second, rest) ← readFixed? 2 (← Text.afterChar? ':' rest)
    let (nano, rest) ← fraction? rest
    let offset ← offset? rest
    (← Numbers.timestamp? ⟨year, month, day, hour, minute, second, nano⟩).later? (-offset)

/-! ## Short forms -/

/-- A date and an hour with a `T` between them. -/
def readHour? (date hour : List Char) : Option Timestamp :=
  match hour with
  | '-' :: _ => none
  | _ => do
    let hour ← readInt? hour
    let t ← readAs? datePattern date
    of? t.date hour.toNat 0 0 0

/-- A date, the first day of a year of four bytes, or the first day of a month of seven. -/
def readDate? (s : String) : Option Timestamp :=
  if s.utf8ByteSize == 4 then
    (readInt? s.toList).bind fun year => (Date.of? year 1 1).map midnight
  else if s.utf8ByteSize == 7 then readAs? datePattern (s.toList ++ "-01".toList)
  else readAs? datePattern s.toList

/-- Reads a timestamp as databases return it. -/
def read? (s : String) : Option Timestamp :=
  let s := Text.trim s
  let cs := s.toList
  readInternet? cs <|> patterns.findSome? (readAs? · cs) <|> short? s
where
  short? (s : String) : Option Timestamp :=
    match s.toList.dropWhile (· != 'T') with
    | _ :: hour => readHour? (s.toList.takeWhile (· != 'T')) hour
    | [] => readDate? s

end Rollup.Timestamp
