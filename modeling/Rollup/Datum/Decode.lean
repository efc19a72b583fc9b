/-
Reading typed values out of structured data. A reader answers `none` when the data has the wrong
shape. A structure is read from a record, whose unknown members are passed over and whose known
members may stand only once, or from a list that gives its fields by position.
-/
import Rollup.Datum.Basic

namespace Rollup.Datum

/-- Reads one kind of value. -/
abbrev Reader (α : Type) := Datum → Option α

/-- Reads a text. -/
def text? : Reader String
  | .text s => some s
  | _ => none

/-- Reads a truth value. -/
def bool? : Reader Bool
  | .bool b => some b
  | _ => none

/-- An unsigned word. -/
def word? : Reader UInt64
  | .int n => if 0 ≤ n && n < UInt64.size then some (UInt64.ofNat n.toNat) else none
  | _ => none

/-- A signed word. -/
def int64? : Reader Int64
  | .int n => if Int64.minValue.toInt ≤ n && n ≤ Int64.maxValue.toInt then some (Int64.ofInt n) else none
  | _ => none

/-- Each item of a list. -/
def list? {α : Type} (item : Reader α) : Reader (List α)
  | .list items => items.mapM item
  | _ => none

/-- A value, or nothing where the data is null. -/
def nullable? {α : Type} (value : Reader α) : Reader (Option α)
  | .null => some none
  | d => (value d).map some

/-- One of the named values. A name may also be given as a record with that name and a null. -/
def named? {α : Type} (all : List α) (name : α → String) : Reader α
  | .text s => all.find? (name · == s)
  | .record [(s, .null)] => all.find? (name · == s)
  | _ => none

/-- The fields found in the data, by name. -/
abbrev Fields := List (String × Datum)

/-- The fields of a structure given as a record. -/
def recordFields? (names : List String) : Datum → Option Fields
  | .record ms =>
    if names.all fun n => (ms.filter (·.1 == n)).length ≤ 1 then some ms else none
  | _ => none

/-- The fields of a structure given as a record or by position. -/
def fields? (names : List String) : Datum → Option Fields
  | .list items => if items.length ≤ names.length then some (names.zip items) else none
  | d => recordFields? names d

namespace Fields

/-- A field that has to be there. -/
def required? {α : Type} (fs : Fields) (name : String) (value : Reader α) : Option α :=
  (fs.lookup name).bind value

/-- A field that stands for `absent` where it is missing. -/
def default? {α : Type} (fs : Fields) (name : String) (absent : α) (value : Reader α) :
    Option α :=
  match fs.lookup name with
  | some d => value d
  | none => some absent

/-- A field that may be missing or null. -/
def optional? {α : Type} (fs : Fields) (name : String) (value : Reader α) : Option (Option α) :=
  default? fs name none (nullable? value)

end Fields

end Rollup.Datum
