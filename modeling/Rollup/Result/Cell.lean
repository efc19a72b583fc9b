/-
Cells: what a database returns, and the typed values that results are made of.
-/
import Rollup.Calendar.Bucket
import Rollup.Number.Notation
import Rollup.Text.Display

namespace Rollup

/-- A cell as a database returns it. -/
inductive RawCell where
  | null
  | int (n : Int64)
  | real (x : Double)
  | text (s : String)
  | blob (bytes : List UInt8)
  deriving DecidableEq, Repr

/-- A cell of a result. -/
inductive Cell where
  | null
  | integer (n : Int64)
  | decimal (x : Double)
  | text (s : String)
  | boolean (b : Bool)
  | time (b : Bucket)
  /-- One of the declared values of a column. -/
  | member (s : String)
  deriving DecidableEq, Repr

/-- The cell as diagnostics show it. -/
def RawCell.describe : RawCell → String
  | null => "Null"
  | int n => "Integer(" ++ toString n.toInt ++ ")"
  | real x => "Real(" ++ Double.Format.diagnostic.write x ++ ")"
  | text s => "Text(" ++ Text.quotedDisplay s ++ ")"
  | blob bytes => "Blob([" ++ Text.join ", " (bytes.map fun b => toString b.toNat) ++ "])"

namespace Cell

/-- A cell as a text for people; a time is shown as its bucket. -/
def display : Cell → String
  | null => "NULL"
  | integer n => toString n.toInt
  | decimal x => Double.Format.plain.write x
  | text s | member s => s
  | boolean b => if b then "true" else "false"
  | time b => b.display

/-- Whether a cell holds no value. -/
def isNull (c : Cell) : Bool :=
  c == null

/-- The integer of a cell that holds one. -/
def integer? : Cell → Option Int64
  | integer n => some n
  | _ => none

/-- The value of a number, rounded if it has to be. -/
def number? : Cell → Option Double
  | integer n => some (Double.ofInt n.toInt)
  | decimal x => some x
  | _ => none

/-- The text of a cell that holds one, be it any text or a declared value. -/
def text? : Cell → Option String
  | text s | member s => some s
  | _ => none

end Cell

end Rollup
