/-
What statements return. An expression has a value over a row, and one over the rows of a group; a
statement makes a record of every group, or of every row where nothing is aggregated. Left open are
the rows that tables, joins and conditions come to, and what a database makes of SQL text.
-/
import Mathlib.Data.List.Dedup
import Mathlib.Data.Rat.Defs
import Mathlib.Order.Defs.LinearOrder
import Mathlib.Algebra.Order.Ring.Rat
import Rollup.Sql.Select

namespace Rollup.Sql

/-- A row, as the values it gives to expressions. NULL is none. -/
abbrev SourceRow (V : Type) := Expr → Option V

/-- The values of a database other than NULL, and what it makes of expressions that are SQL text. -/
structure Database (V : Type) where
  /-- The value of a number. -/
  number : ℚ → V
  /-- The number a value counts as. -/
  amount : V → ℚ
  amount_number : ∀ q, amount (number q) = q
  /-- Whether SQL text aggregates by itself. -/
  aggregates : String → Bool
  /-- The value over a group of an expression that neither aggregates nor is a key of the group. -/
  formula : Expr → List (SourceRow V) → Option V
  formula_one : ∀ g, formula (.raw "1.0") g = some (number 1)
  /-- Whether a group meets a condition. -/
  meets : Expr → List (SourceRow V) → Bool
  /-- Whether a tuple in parentheses is one that COUNT counts. -/
  countsTuple : List (Option V) → Bool
  /-- Whether a record with some sort values may stand before one with others. -/
  precedes : List Direction → List (Option V) → List (Option V) → Prop

/-- A database of nothing but numbers, in which conditions hold and no SQL text aggregates. -/
def Database.numbers : Database ℚ where
  number := id
  amount := id
  amount_number := fun _ => rfl
  aggregates := fun _ => false
  formula := fun _ _ => some 1
  formula_one := fun _ => rfl
  meets := fun _ _ => true
  countsTuple := fun _ => true
  precedes := fun _ _ _ => True

/-! ## Aggregates -/

/-- Values brought together two by two; NULL takes no part. -/
def combine {α : Type} (op : α → α → α) (vs : List (Option α)) : Option α :=
  vs.foldr (Option.merge op) none

namespace Database

variable {V : Type} [LinearOrder V] (db : Database V)

/-- The sum of the values that are not NULL, if there are any. -/
def total (vs : List (Option V)) : Option ℚ :=
  combine (· + ·) (vs.map (Option.map db.amount))

/-- The number of values that are not NULL. -/
def present (vs : List (Option V)) : Nat :=
  vs.countP Option.isSome

/-- The sum as a value. -/
def sum (vs : List (Option V)) : Option V :=
  (db.total vs).map db.number

/-- The number of values that are not NULL, as a value. -/
def count (vs : List (Option V)) : Option V :=
  some (db.number (present vs))

/-- The sum by the number of values that are not NULL, if there are any. -/
def avg (vs : List (Option V)) : Option V :=
  (db.total vs).map fun t => db.number (t / present vs)

/-- A product. -/
def times (a b : Option V) : Option V :=
  a.bind fun x => b.map fun y => db.number (db.amount x * db.amount y)

/-- A quotient. By zero there is none. -/
def quotient (a b : Option V) : Option V :=
  a.bind fun x => b.bind fun y =>
    if db.amount y = 0 then none else some (db.number (db.amount x / db.amount y))

/-! ## Expressions -/

/-- What an argument of COUNT(DISTINCT ..) comes to in a row. -/
def distinctValues (r : SourceRow V) : Expr → List (Option V)
  | .tuple es => es.map r
  | e => [r e]

/-- Whether COUNT(DISTINCT ..) counts a row, as far as one of its arguments goes. -/
def countsArgument (r : SourceRow V) : Expr → Bool
  | .tuple es => db.countsTuple (es.map r)
  | e => (r e).isSome

/-- COUNT(DISTINCT ..): how many different values the rows have that are counted. -/
def countDistinct (es : List Expr) (g : List (SourceRow V)) : Nat :=
  ((g.filter fun r => es.all (db.countsArgument r)).map fun r =>
    es.map (distinctValues r)).dedup.length

/-- The value of an expression over a group. Keys have the value they have in its rows. -/
def value (keys : List Expr) (g : List (SourceRow V)) : Expr → Option V
  | .call "COUNT" true es => some (db.number (db.countDistinct es g))
  | .call "COUNT" false [.star] => some (db.number g.length)
  | .call "COUNT" false [e] => db.count (g.map (· e))
  | .call "SUM" false [e] => db.sum (g.map (· e))
  | .call "AVG" false [e] => db.avg (g.map (· e))
  | .call "MIN" false [e] => combine min (g.map (· e))
  | .call "MAX" false [e] => combine max (g.map (· e))
  | .binary a .mul b => db.times (value keys g a) (value keys g b)
  | .binary a .div b => db.quotient (value keys g a) (value keys g b)
  | .raw sql =>
    if keys.any fun | .raw t => t == sql | _ => false then g.head?.bind (· (.raw sql))
    else db.formula (.raw sql) g
  | .column table name =>
    if keys.any fun | .column t n => t == table && n == name | _ => false then
      g.head?.bind (· (.column table name))
    else db.formula (.column table name) g
  | e => db.formula e g

/-- Whether an expression aggregates. -/
def isAggregate : Expr → Bool
  | .call f _ _ => ["COUNT", "SUM", "AVG", "MIN", "MAX"].contains f
  | .binary a _ b => isAggregate a || isAggregate b
  | .raw sql => db.aggregates sql
  | _ => false

end Database

/-! ## Statements -/

section

variable {α κ : Type} [DecidableEq κ]

/-- Things put together by a key, one group to each key that occurs. -/
def partitionBy (key : α → κ) (as : List α) : List (List α) :=
  (as.map key).dedup.map fun k => as.filter (key · = k)

/-- The part of a list that a page shows. -/
def Page.cut : Option Page → List α → List α
  | none, as => as
  | some p, as =>
    let rest := as.drop (p.offset.elim 0 UInt64.toNat)
    match p.limit with
    | some n => rest.take n.toNat
    | none => rest

theorem Page.cut_map {β : Type} (f : α → β) (page : Option Page) (as : List α) :
    Page.cut page (as.map f) = (Page.cut page as).map f := by
  cases page with
  | none => rfl
  | some p =>
    simp only [cut, ← List.map_drop]
    split
    · rw [List.map_take]
    · rfl

end

/-- A record of a result: its values under their labels. -/
abbrev Record (V : Type) := List (Option String × Option V)

namespace Record

variable {V : Type}

/-- The value under a label. -/
def get (r : Record V) (label : String) : Option V :=
  (r.lookup (some label)).join

/-- A record of a subquery as a row of the statement around it. -/
def row (source : Option String) (r : Record V) : SourceRow V
  | .column table name => if table = none ∨ table = source then r.get name else none
  | _ => none

/-- What is left of a record when only some labels are kept. -/
def only (labels : List String) (r : Record V) : Record V :=
  r.filter fun e => e.1.any labels.contains

end Record

namespace Select

variable {V : Type} [LinearOrder V] (db : Database V)

/-- Whether the rows are brought together. -/
def isGrouped (s : Select) : Bool :=
  !s.groupBy.isEmpty || s.items.any fun i => db.isAggregate i.expr

/-- The groups of the rows. Without keys everything is one group, be it empty. -/
def groups (s : Select) (rows : List (SourceRow V)) : List (List (SourceRow V)) :=
  if s.groupBy.isEmpty then [rows] else partitionBy (fun r => s.groupBy.map r) rows

/-- What the select list is evaluated in: the groups that meet the condition on groups, each as the
values that expressions have over it, or the rows. -/
def units (s : Select) (rows : List (SourceRow V)) : List (SourceRow V) :=
  if s.isGrouped db then
    ((s.groups rows).filter fun g => s.having.all (db.meets · g)).map (db.value s.groupBy)
  else rows

/-- What the select list comes to in a unit. -/
def record (s : Select) (u : SourceRow V) : Record V :=
  s.items.map fun i => (i.label, u i.expr)

/-- The value a record is ordered by. A name on its own is a label of the select list. -/
def sortValue (s : Select) (u : SourceRow V) (o : Order) : Option V :=
  match o.expr with
  | .column none name => (s.record u).get name
  | e => u e

/-- The values a record is ordered by. -/
def sortValues (s : Select) (u : SourceRow V) : List (Option V) :=
  s.orderBy.map (s.sortValue u)

/-- The records made of some rows, with the values they are ordered by. DISTINCT compares the
records alone. -/
def entriesOver (s : Select) (rows : List (SourceRow V)) : List (Record V × List (Option V)) :=
  let es := (s.units db rows).map fun u => (s.record u, s.sortValues u)
  if s.distinct then es.pwFilter (fun a b => a.1 ≠ b.1) else es

end Select

section

variable {V : Type} [LinearOrder V] (db : Database V) (bag : List (SourceRow V))

mutual

/-- The rows of a relation under a name. Those of a table or of a text are the given ones, which
its joins and the condition have been applied to. -/
def Relation.rows (label : Option String) : Relation → List (SourceRow V)
  | .table _ _ => bag
  | .text _ => bag
  | .query s => s.entries.map fun e => e.1.row label

/-- The rows of a source, under its alias. -/
def Source.rows : Source → List (SourceRow V)
  | ⟨relation, label⟩ => relation.rows label

/-- Without a source there is one row, with nothing in it. -/
def sourceRows : Option Source → List (SourceRow V)
  | none => [fun _ => none]
  | some s => s.rows

/-- The records of a statement, in no order, with the values they are ordered by. -/
def Select.entries : Select → List (Record V × List (Option V))
  | ⟨items, distinct, source, joins, condition, groupBy, having, orderBy, page⟩ =>
    Select.entriesOver db
      ⟨items, distinct, source, joins, condition, groupBy, having, orderBy, page⟩
      (sourceRows source)

end

/-- The records of a statement, in no order and before a page is cut out. -/
def Select.records (s : Select) : List (Record V) :=
  (s.entries db bag).map (·.1)

/-- What a statement may return: its records, in an order their sort values allow, cut to the
page. -/
def Select.Returns (s : Select) (out : List (Record V)) : Prop :=
  ∃ es : List (Record V × List (Option V)), es.Perm (s.entries db bag) ∧
    es.Pairwise (fun a b => db.precedes (s.orderBy.map (·.direction)) a.2 b.2) ∧
    out = Page.cut s.page (es.map (·.1))

theorem Select.entries_eq (s : Select) :
    s.entries db bag = s.entriesOver db (sourceRows db bag s.source) := by
  cases s
  rfl

/-- Neither the order nor the page has a part in the records. -/
theorem Select.records_eq (s : Select) :
    s.records db bag =
      let rs := (s.units db (sourceRows db bag s.source)).map s.record
      if s.distinct then rs.dedup else rs := by
  rw [records, entries_eq, entriesOver]
  dsimp only
  split
  · have h := List.pwFilter_map (R := (· ≠ ·)) Prod.fst ((s.units db
      (sourceRows db bag s.source)).map fun u => (s.record u, s.sortValues u))
    rw [List.map_map] at h
    exact h.symm
  · rw [List.map_map]
    rfl

/-- A statement that groups makes a record of every group. -/
theorem Select.entries_grouped {s : Select} (hgroups : s.groupBy ≠ []) (hhaving : s.having = none)
    (hdistinct : s.distinct = false) :
    s.entries db bag =
      (partitionBy (fun r => s.groupBy.map r) (sourceRows db bag s.source)).map fun g =>
        (s.record (db.value s.groupBy g), s.sortValues (db.value s.groupBy g)) := by
  have hkeys : s.groupBy.isEmpty = false := by simpa using hgroups
  simp only [entries_eq, entriesOver, hdistinct, Bool.false_eq_true, if_false, units, isGrouped,
    groups, hkeys, Bool.not_false, Bool.true_or, if_true, hhaving, Option.all_none,
    List.filter_true, List.map_map]
  rfl

/-- A statement that aggregates without keys makes one record, be there rows or not. -/
theorem Select.entries_total {s : Select} (hgroups : s.groupBy = [])
    (hagg : s.items.any (fun i => db.isAggregate i.expr) = true) (hhaving : s.having = none)
    (hdistinct : s.distinct = false) :
    s.entries db bag = [(s.record (db.value [] (sourceRows db bag s.source)),
      s.sortValues (db.value [] (sourceRows db bag s.source)))] := by
  simp only [entries_eq, entriesOver, hdistinct, Bool.false_eq_true, if_false, units, isGrouped,
    groups, hgroups, List.isEmpty_nil, Bool.not_true, Bool.false_or, hagg, if_true, hhaving,
    Option.all_none, List.filter_true, List.map_cons, List.map_nil]

end

end Rollup.Sql
