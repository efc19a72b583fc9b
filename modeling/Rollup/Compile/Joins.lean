/-
Planning joins. The joins a statement needs are those its formulas read through, those on the way
there, and those the conditions of all of them read through. Each is placed after its parent and
after every join its condition reads through; of the joins that may come next, the one declared
first does.
-/
import Rollup.Expansion.Memo

namespace Rollup

/-- A join of a statement. -/
structure PlannedJoin where
  kind : JoinKind
  table : Table
  label : String
  /-- The expanded condition; a cross join has none. -/
  on : Option String
  deriving DecidableEq, Repr

/-- A join with what decides its place. -/
structure JoinNode where
  path : JoinPath
  /-- The positions of the joins along the path, each in the order of declaration. -/
  order : List Nat
  /-- The paths that must be joined before. -/
  needs : List JoinPath
  join : PlannedJoin
  deriving DecidableEq

namespace JoinPlan

/-- The positions of the joins along a path, and the table at its end. -/
def positions {m : Model} (t : m.Member) : JoinPath → Except CompileError (List Nat × m.Member)
  | [] => .ok ([], t)
  | name :: rest => do
    match t.1.join? name with
    | none => throw (.unresolvable t.1.name name (.unknownJoin name))
    | some j =>
      let (order, target) ← positions (← m.require j.table) rest
      return ((t.1.joinIndex? name).getD 0 :: order, target)

/-- The join at the end of a path, which leads there from `parent`. -/
def nodeAt {m : Model} (mode : Mode) (scope : Scope m) (parent : JoinPath) (name : String) :
    Except CompileError JoinNode := do
  let path := parent ++ [name]
  let (order, t) ← positions scope.root parent
  match t.1.join? name with
  | none => throw (.unresolvable t.1.name name (.unknownJoin name))
  | some j =>
    let target ← m.require j.table
    let condition ← if j.kind == .cross then pure none
      else (resolveTemplate mode scope parent j.condition ("join:" ++ name)).map some
    let read := (condition.map (·.joins)).getD []
    let needs := JoinPath.union (if parent.isEmpty then [] else [parent])
      (read.filter fun p => !p.isEmpty && p != path)
    return {
      path
      order := order ++ [(t.1.joinIndex? name).getD 0]
      needs
      join := {
        kind := j.kind
        table := target.1
        label := aliasFor mode.dialect scope.root.1 path
        on := condition.map (·.sql) } }

/-- Takes up a path. If it was not met before its node is found, and the joins on the way there and
those it needs are left waiting. -/
def closeStep {m : Model} (mode : Mode) (scope : Scope m) (path : JoinPath)
    (waiting : List JoinPath) (found : List JoinNode) :
    Except CompileError (List JoinPath × List JoinNode) :=
  match path.getLast? with
  | none => .ok (waiting, found)
  | some name =>
    if found.any (·.path == path) then .ok (waiting, found)
    else do
      let node ← nodeAt mode scope path.dropLast name
      return (waiting ++ JoinPath.starts path.dropLast ++ node.needs, found ++ [node])

/-- The nodes of the waiting paths and of everything they need, in the order they were met. Where
conditions read through ever longer paths this does not come to an end, and is `none`. -/
def close {m : Model} (mode : Mode) (scope : Scope m) (waiting : List JoinPath)
    (found : List JoinNode) : Option (Except CompileError (List JoinNode)) :=
  match waiting with
  | [] => some (.ok found)
  | path :: waiting =>
    match closeStep mode scope path waiting found with
    | .error e => some (.error e)
    | .ok (waiting, found) => by
      -- a call written as a term would take its place in the file into the definition
      apply close
      · exact mode
      · exact scope
      · exact waiting
      · exact found
partial_fixpoint

/-- The first node in the order of declaration. -/
def first? : List JoinNode → Option JoinNode
  | [] => none
  | n :: rest => match first? rest with
    | none => some n
    | some k => some (if k.order < n.order then k else n)

/-- The nodes whose needs are all met. -/
def ready (done : List JoinPath) (nodes : List JoinNode) : List JoinNode :=
  nodes.filter fun n => n.needs.all done.contains

/-- The nodes in the order they are joined; `done` are the paths joined before. A rest of which
none can come next reads in a circle. -/
def arrange : (count : Nat) → (done : List JoinPath) → (nodes : List JoinNode) →
    Except CompileError (List JoinNode)
  | 0, _, _ => .ok []
  | count + 1, done, nodes =>
    if nodes.isEmpty then .ok []
    else match first? (ready done nodes) with
      | none => .error (.joinCycle ((nodes.map fun n => Text.join "." n.path).mergeSort))
      | some n => do
        return n :: (← arrange count (n.path :: done) (nodes.filter (·.path != n.path)))

/-- The joins without those whose alias is taken by an earlier one. -/
def distinctAliases (taken : List String) : List PlannedJoin → List PlannedJoin
  | [] => []
  | j :: rest =>
    if taken.contains j.label then distinctAliases taken rest
    else j :: distinctAliases (j.label :: taken) rest

/-- The joins of a statement that reads through the required paths, in order; `none` when planning
does not come to an end. -/
def of? {m : Model} (mode : Mode) (scope : Scope m) (required : List JoinPath) :
    Option (Except CompileError (List PlannedJoin)) :=
  (close mode scope required []).map fun closed => do
    let nodes ← closed
    let ordered ← arrange nodes.length [] nodes
    return distinctAliases [] (ordered.map (·.join))

/-- The joins of a statement that reads through the required paths, in order. -/
def of {m : Model} (mode : Mode) (scope : Scope m) (required : List JoinPath) :
    Except CompileError (List PlannedJoin) :=
  (of? mode scope required).getD (.error .endlessJoins)

end JoinPlan

end Rollup
