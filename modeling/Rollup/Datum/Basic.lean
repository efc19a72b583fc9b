/-
Structured data as documents hold it: what JSON and TOML texts are read into and written from.
Members of a record keep their order, and a name may stand in it twice.
-/
import Rollup.Keyed
import Rollup.Number.Double

namespace Rollup

/-- A piece of structured data. -/
inductive Datum where
  | null
  | bool (b : Bool)
  | int (n : Int)
  | real (x : Double)
  | text (s : String)
  | list (items : List Datum)
  | record (members : List (String × Datum))

namespace Datum

/-- The member of that name, the first when there are two. -/
def member? (name : String) : Datum → Option Datum
  | .record ms => ms.lookup name
  | _ => none

mutual

/-- The same data with one member to a name, the last one given, where the first one stood. -/
def lastWins : Datum → Datum
  | .list items => .list (lastWinsItems items)
  | .record ms => .record (lastWinsMembers [] ms)
  | d => d

/-- Every item with one member to a name. -/
def lastWinsItems : List Datum → List Datum
  | [] => []
  | d :: rest => lastWins d :: lastWinsItems rest

/-- The members done so far and those that follow, a later one in the place of an earlier one. -/
def lastWinsMembers (done : List (String × Datum)) :
    List (String × Datum) → List (String × Datum)
  | [] => done
  | (k, d) :: rest => lastWinsMembers (Keyed.put k (lastWins d) done) rest

end

mutual

/-- Whether every number in it is finite. -/
def isFinite : Datum → Bool
  | .real x => x.isFinite
  | .list items => allFinite items
  | .record ms => allMembersFinite ms
  | _ => true

/-- Whether every number in the items of a list is finite. -/
def allFinite : List Datum → Bool
  | [] => true
  | d :: rest => isFinite d && allFinite rest

/-- Whether every number in the members of a record is finite. -/
def allMembersFinite : List (String × Datum) → Bool
  | [] => true
  | (_, d) :: rest => isFinite d && allMembersFinite rest

end

mutual

/-- The same data with the members of every record in the order of their names. -/
def sorted : Datum → Datum
  | .list items => .list (sortedItems items)
  | .record ms => .record ((sortedMembers ms).mergeSort fun a b => a.1 ≤ b.1)
  | d => d

/-- The items where they stand, with the members inside them in order. -/
def sortedItems : List Datum → List Datum
  | [] => []
  | d :: rest => sorted d :: sortedItems rest

/-- The members where they stand, with the members inside them in order. -/
def sortedMembers : List (String × Datum) → List (String × Datum)
  | [] => []
  | (k, d) :: rest => (k, sorted d) :: sortedMembers rest

end

end Datum

end Rollup
