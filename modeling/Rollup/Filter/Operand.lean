/-
The literal values predicates compare with. As they come from JSON: an integer that fits a signed
word stays one, every other number is binary floating point.
-/
import Rollup.Datum.Decode
import Rollup.Number.Notation
import Rollup.Text.Split

namespace Rollup

/-- A literal value. -/
inductive Operand where
  | null
  | bool (b : Bool)
  | int (n : Int64)
  | real (x : Double)
  | text (s : String)
  deriving DecidableEq, Repr

namespace Operand

/-- The value for people. -/
def display : Operand → String
  | null => "null"
  | bool b => if b then "true" else "false"
  | int n => toString n.toInt
  | real x => Double.Format.plain.write x
  | text s => "'" ++ s ++ "'"

/-- The value as a SQL literal. -/
def displaySql : Operand → String
  | null => "NULL"
  | text s => "'" ++ Text.substitute '\'' ['\'', '\''] s ++ "'"
  | v => v.display

/-- A text as it is, and any other value as it is shown. -/
def plainText : Operand → String
  | text s => s
  | v => v.display

/-- Whether an operand is a text. -/
def isText : Operand → Bool
  | text _ => true
  | _ => false

/-- An operand as it is written. -/
def toDatum : Operand → Datum
  | null => .null
  | bool b => .bool b
  | int n => .int n.toInt
  | real x => .real x
  | text s => .text s

/-- Reads an operand. An integer beyond 64 bits is taken as a floating point number. -/
def ofDatum? : Datum → Option Operand
  | .null => some null
  | .bool b => some (bool b)
  | .int n =>
    if Int64.minValue.toInt ≤ n && n ≤ Int64.maxValue.toInt then some (int (Int64.ofInt n)) else some (real (Double.ofInt n))
  | .real x => if x.isFinite then some (real x) else none
  | .text s => some (text s)
  | _ => none

end Operand

end Rollup
