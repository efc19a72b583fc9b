/-
Expanding columns and join conditions, columns with a memory: a column that was expanded before with
the same arguments and grain is not expanded again. Failures are not remembered.
-/
import Rollup.Expansion.Machine

namespace Rollup

/-- Everything an expansion of a column depends on, for one model and dialect. -/
structure MemoKey where
  root : String
  scope : String
  path : JoinPath
  column : String
  arguments : String
  grain : Option Grain
  deriving DecidableEq, Repr

/-- The expansions found so far. -/
abbrev Memo := List (MemoKey × Fragment)

/-- A computation that expands columns and remembers them. -/
abbrev Expanding := StateT Memo (Except CompileError)

/-- A failure in a computation that remembers. -/
def Expanding.fail {α : Type} (e : CompileError) : Expanding α :=
  fun _ => .error e

/-- Expands the column of a table reached from the root, without looking at the memory. -/
def expandColumn {m : Model} (mode : Mode) (scope : Scope m) (path : JoinPath) (column : String)
    (arguments : Arguments) (grain : Option Grain) : Except CompileError Fragment := do
  let reference := stepsText path column
  let (t, path) ← walk reference scope.root [] path
  let f ← openColumn t path column .empty arguments grain reference
  Expansion.expand mode scope f.1

/-- Expands the column of a table reached from the root. -/
def resolveColumn {m : Model} (mode : Mode) (scope : Scope m) (path : JoinPath) (column : String)
    (arguments : Arguments) (grain : Option Grain) : Expanding Fragment := do
  let key : MemoKey := ⟨scope.root.1.name, scope.arguments.signature none, path, column,
    arguments.signature none, grain⟩
  match (← get).lookup key with
  | some f => return f
  | none =>
    let f ← expandColumn mode scope path column arguments grain
    modify fun memo => (key, f) :: memo
    return f

/-- Expands the column a path names. -/
def resolvePath {m : Model} (mode : Mode) (scope : Scope m) (p : Path) (grain : Option Grain) :
    Expanding Fragment :=
  resolveColumn mode scope p.joins p.column p.arguments grain

/-- Expands a template of its own, such as the condition of a join, in the table a path leads to. -/
def resolveTemplate {m : Model} (mode : Mode) (scope : Scope m) (path : JoinPath)
    (template label : String) : Except CompileError Fragment := do
  let (t, path) ← walk label scope.root [] path
  let u ← readTemplate t.1 label template
  Expansion.expand mode scope {
    table := t
    path
    column := none
    arguments := .empty
    rest := u.1
    key := none
    label := aliasFor mode.dialect scope.root.1 path ++ "." ++ label }

/-- The table a path leads to. -/
def tableAt {m : Model} (root : m.Member) (path : JoinPath) : Except CompileError m.Member :=
  (walk (Text.join "." path) root [] path).map (·.1)

end Rollup
