/-
Checking requests. Table arguments come first, then the selected columns, then their names, then
the columns the filters are about; the first fault counts.
-/
import Rollup.Digest.Sha256
import Rollup.Expansion.Basic
import Rollup.Query.Basic

namespace Rollup

/-- Checks a value given by a request against the declaration of its argument. -/
def checkArgument (owner name value : String) (undeclared : ArgumentFault) :
    Option Parameter → Except CompileError Unit
  | none => .error (.invalidArgument owner name undeclared)
  | some p => (p.check value).mapError fun fault => .invalidArgument owner name (.value fault)

/-- Follows the joins of a path. -/
def followJoins {m : Model} (t : m.Member) : List String → Except CompileError m.Member
  | [] => .ok t
  | name :: rest => do
    match t.1.join? name with
    | none => throw (.unknownColumn t.1.name name)
    | some j => followJoins (← m.require j.table) rest

/-- The table and the column a path leads to from `root`. The grain and the arguments must be ones
the column declares. -/
def locate {m : Model} (root : m.Member) (p : Path) : Except CompileError (m.Member × Column) := do
  let t ← followJoins root p.joins
  match t.1.column? p.column with
  | none => throw (.unknownColumn t.1.name p.column)
  | some c =>
    let owner := t.1.name ++ "." ++ c.name
    match p.grain with
    | some g =>
      if (c.grain? g).isNone then
        throw (.invalidArgument owner "grain"
          (if c.isTime then .undeclaredGrain g else .grainWithoutTime))
    | none => pure ()
    p.arguments.entries.forM fun (name, value) =>
      checkArgument owner name value .undeclaredByColumn (c.parameter? name)
    return (t, c)

namespace Query

/-- The name of an output column whose plain name is taken by another one as well: the plain name,
the grain, and a digest of the whole path. -/
def longAlias (p : Path) : String :=
  p.baseAlias ++ (match p.grain with
    | some g => "_" ++ g.name
    | none => "") ++ "_" ++ Digest.short p.display

/-- A selected column with its default grain filled in. -/
structure Selected where
  path : Path
  column : Column
  name : Option String

/-- The name of a selected column: the one asked for, else the plain name when no other column
without a name has the same, else the long one. -/
def aliasAmong (all : List Selected) (s : Selected) : String :=
  match s.name with
  | some a => a
  | none =>
    let unnamed := all.filter (·.name.isNone)
    if 1 < (unnamed.filter (·.path.baseAlias == s.path.baseAlias)).length then longAlias s.path
    else s.path.baseAlias

/-- Gives every selected column its name. No two may be the same. -/
def assignAliases (all : List Selected) : Except CompileError (List Projection) :=
  go [] all
where
  go (taken : List String) : List Selected → Except CompileError (List Projection)
    | [] => .ok []
    | s :: rest => do
      let a := aliasAmong all s
      if taken.contains a then throw (.duplicateAlias a)
      return ⟨s.path, s.column.role, a⟩ :: (← go (a :: taken) rest)

/-- Looks a selection up; a time dimension without grain gets its finest. -/
def lookUp {m : Model} (root : m.Member) (s : Selection) : Except CompileError Selected := do
  let (_, c) ← locate root s.column
  let path := if c.isTime && s.column.grain.isNone then
    { s.column with grain := c.defaultGrain? } else s.column
  return ⟨path, c, s.name⟩

/-- The query a request stands for. -/
def build (m : Model) (r : Request) : Except CompileError Query := do
  let root ← m.require r.table
  r.arguments.entries.forM fun (name, value) =>
    checkArgument root.1.name name value .undeclaredByTable (root.1.parameter? name)
  if r.select.isEmpty then throw (.invalidProjection root.1.name .nothingSelected)
  let selected ← r.select.mapM (lookUp root)
  if selected.all (·.column.valueType == .id) then
    throw (.invalidProjection root.1.name .onlyIds)
  let projections ← assignAliases selected
  (r.filter.toList ++ r.having.toList).forM fun f =>
    f.predicates.forM fun p => discard (locate root p.column)
  return {
    table := root.1.name
    arguments := r.arguments
    projections
    whereFilter := r.filter
    havingFilter := r.having
    sorting := r.orderBy
    pagination := r.pagination
    bypassCache := r.bypassCache }

end Query

end Rollup
