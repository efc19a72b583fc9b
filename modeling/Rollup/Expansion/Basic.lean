/-
What a formula expands to, and where it is expanded: the table a statement reads from with the
values of its arguments, and the tables reached from it through joins.
-/
import Rollup.CompileError
import Rollup.Sql.Alias

namespace Rollup

/-- The names of the joins followed from the root, in order. -/
abbrev JoinPath := List String

namespace JoinPath

/-- Adds a path to some in ascending order. -/
def insert (p : JoinPath) : List JoinPath → List JoinPath
  | [] => [p]
  | q :: rest =>
    if p < q then p :: q :: rest else if p = q then q :: rest else q :: insert p rest

/-- The starts of a path, itself included and the empty one left out, from short to long. -/
def starts : JoinPath → List JoinPath
  | [] => []
  | j :: rest => [j] :: (starts rest).map (j :: ·)

/-- Adds the starts of a path. -/
def record (p : JoinPath) (paths : List JoinPath) : List JoinPath :=
  p.starts.foldl (fun paths q => insert q paths) paths

/-- Adds some paths. -/
def union (paths more : List JoinPath) : List JoinPath :=
  more.foldl (fun paths p => insert p paths) paths

theorem mem_insert {p q : JoinPath} {paths : List JoinPath} :
    q ∈ insert p paths ↔ q = p ∨ q ∈ paths := by
  induction paths with
  | nil => simp [insert]
  | cons r rest ih =>
    simp only [insert]
    split
    · simp
    · split
      · rename_i h
        simp [h]
      · simp only [List.mem_cons, ih]
        exact or_left_comm

end JoinPath

/-- An expanded formula and the join paths it reads through, each with all its starts, in
ascending order. -/
structure Fragment where
  sql : String
  joins : List JoinPath
  deriving DecidableEq

/-- A table of the model. -/
abbrev Model.Member (m : Model) := { t : Table // t ∈ m.tables }

/-- The columns of all tables. -/
def Model.columns (m : Model) : List Column :=
  m.tables.flatMap (·.columns)

/-- A column of some table of the model. -/
abbrev Model.AnyColumn (m : Model) := { c : Column // c ∈ m.columns }

/-- The table of a name, as a table of the model. -/
def Model.member? (m : Model) (name : String) : Option m.Member :=
  match h : m.table? name with
  | some t => some ⟨t, Model.mem_of_table? h⟩
  | none => none

/-- The column of a name in a table of the model. -/
def Model.Member.column? {m : Model} (t : m.Member) (name : String) : Option m.AnyColumn :=
  match h : t.1.column? name with
  | some c => some ⟨c, List.mem_flatMap.2 ⟨t.1, t.2, List.mem_of_find?_eq_some h⟩⟩
  | none => none

/-- The table of a name, or the error that there is none. -/
def Model.require (m : Model) (name : String) : Except CompileError m.Member :=
  match m.member? name with
  | some t => .ok t
  | none => .error (.invalidModel (.unknownTable name))

/-- The table a statement reads from, and the values of its arguments. -/
structure Scope (m : Model) where
  root : m.Member
  arguments : Arguments

/-- The scope in which the given values stand in front of the declared defaults. -/
def Scope.of {m : Model} (root : m.Member) (given : Arguments) : Scope m :=
  ⟨root, root.1.defaults.overlay given⟩

/-- The name a table is given in a statement: the root's name and the joins that lead to it. -/
def aliasFor (d : Dialect) (root : Table) (path : JoinPath) : String :=
  Sql.fitName d (Text.join "_" (root.name :: path))

/-- A column or database column behind the joins that lead to it. -/
def stepsText (joins : List String) (last : String) : String :=
  Text.join "." (joins ++ [last])

/-- Follows joins from a table; `reference` is what the error calls the way. -/
def walk {m : Model} (reference : String) (t : m.Member) (path : JoinPath) :
    (joins : List String) → Except CompileError (m.Member × JoinPath)
  | [] => .ok (t, path)
  | name :: rest =>
    match t.1.join? name with
    | none => .error (.unresolvable t.1.name reference (.unknownJoin name))
    | some j => match m.member? j.table with
      | none => .error (.unresolvable t.1.name reference (.unknownTarget name j.table))
      | some target => walk reference target (path ++ [name]) rest

end Rollup
