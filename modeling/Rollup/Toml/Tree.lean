/-
A TOML document while it is read. Headers and dotted keys open tables and put values into them; a
table can be opened once by a header of its own, values are closed, and no key is given twice.
-/
import Rollup.Datum.Basic

namespace Rollup.Toml

/-- How a table came to be there. -/
inductive Opening where
  /-- Named by a header. -/
  | named
  /-- On the way to a table named by a header. -/
  | implied
  /-- On the way of a dotted key. -/
  | dotted
  deriving DecidableEq, Repr

/-- What a key stands for. -/
inductive Node where
  /-- A finished value, to which nothing can be added. -/
  | value (d : Datum)
  | table (opening : Opening) (members : List (String × Node))
  /-- An array that headers add tables to, the last one first. -/
  | tables (items : List (List (String × Node)))

/-- Keys and what they stand for, in the order they were met. -/
abbrev Members := List (String × Node)

namespace Members

/-- Changes what is inside a table that lies on the way of a header, or of a dotted key. A table
that is not there yet is opened; an array of tables is entered at its last table. -/
def enter? (byDots : Bool) (change : Members → Option Members) : Option Node → Option Node
  | none => (change []).map (.table (if byDots then .dotted else .implied))
  | some (.table opening ms) =>
    if byDots && opening == .named then none else (change ms).map (.table opening)
  | some (.tables (last :: earlier)) =>
    if byDots then none else (change last).map fun ms => .tables (ms :: earlier)
  | some _ => none

/-- Changes the table at the end of a way. -/
def along? (byDots : Bool) (change : Members → Option Members) :
    (way : List String) → Members → Option Members
  | [], ms => change ms
  | key :: way, ms => (enter? byDots (along? byDots change way) (ms.lookup key)).map fun n => Keyed.put key n ms

/-- Gives a new key its value. -/
def insert? (way : List String) (key : String) (d : Datum) (ms : Members) : Option Members :=
  along? true (fun ms => if (ms.lookup key).isSome then none else some (Keyed.put key (.value d) ms))
    way ms

/-- Opens the table a header names. -/
def openTable? (way : List String) (key : String) (ms : Members) : Option Members :=
  along? false (fun ms => match ms.lookup key with
    | none => some (Keyed.put key (.table .named []) ms)
    | some (.table .implied inner) => some (Keyed.put key (.table .named inner) ms)
    | some _ => none) way ms

/-- Adds a table to the array a header names. -/
def openItem? (way : List String) (key : String) (ms : Members) : Option Members :=
  along? false (fun ms => match ms.lookup key with
    | none => some (Keyed.put key (.tables [[]]) ms)
    | some (.tables items) => some (Keyed.put key (.tables ([] :: items)) ms)
    | some _ => none) way ms

end Members

mutual

/-- What the node holds. -/
def Node.toDatum : Node → Datum
  | .value d => d
  | .table _ ms => .record (membersDatum ms)
  | .tables items => .list (itemsData items).reverse

/-- The members of a table as data. -/
def membersDatum : List (String × Node) → List (String × Datum)
  | [] => []
  | (key, n) :: rest => (key, n.toDatum) :: membersDatum rest

/-- The tables of an array as data, each a record. -/
def itemsData : List (List (String × Node)) → List Datum
  | [] => []
  | ms :: rest => .record (membersDatum ms) :: itemsData rest

end

end Rollup.Toml
