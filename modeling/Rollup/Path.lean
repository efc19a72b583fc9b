/-
Column paths: the joins to follow from a table, the column at their end, and perhaps the grain and
the arguments it is wanted with. The short form `join.join.column@grain` leaves out the arguments.
-/
import Rollup.Calendar.Grain
import Rollup.Model.Arguments
import Rollup.Text.Blank
import Rollup.Text.Split

namespace Rollup

/-- A column reached through joins. -/
structure Path where
  joins : List String := []
  column : String
  grain : Option Grain := none
  arguments : Arguments := .empty
  deriving DecidableEq

/-- Why a text is no path. -/
inductive PathError where
  | grain (e : UnknownGrain)
  | malformed (text : String)
  deriving DecidableEq, Repr

/-- What is told of a text that is no path. -/
def PathError.message : PathError → String
  | grain e => e.message
  | malformed text => "malformed column path '" ++ text ++ "'"

namespace Path

/-- The same column through the same joins with the same arguments; grains may differ. -/
def sameColumn (p q : Path) : Bool :=
  p.joins == q.joins && p.column == q.column && p.arguments == q.arguments

/-- The output name of the path: joins and column joined by underscores. -/
def baseAlias (p : Path) : String :=
  let via := Text.join "_" p.joins
  if via.isEmpty then p.column else via ++ "_" ++ p.column

/-- The steps of the short form: every part must have a character that is not blank. -/
def steps? (text : String) : Option (List String × String) :=
  let parts := (Text.split '.' text).map Text.trim
  if parts.any (·.isEmpty) then none else some (parts.dropLast, parts.getLastD "")

/-- Reads the short form. An unknown grain is reported before anything else. -/
def parse (text : String) : Except PathError Path := do
  let (steps, grain) ← match Text.splitFirst? '@' text with
    | some (steps, grain) => do
      let g ← (Grain.parse grain).mapError PathError.grain
      pure (steps, some g)
    | none => pure (text, none)
  match steps? steps with
  | some (joins, column) => pure ⟨joins, column, grain, .empty⟩
  | none => throw (.malformed text)

/-- Reads the short form; a text that has not that form is the name of a column. -/
def ofText (text : String) : Path :=
  match parse text with
  | .ok p => p
  | .error _ => { column := text }

/-- The path in its short form, followed by the arguments in brackets when there are any. -/
def display (p : Path) : String :=
  Text.join "." (p.joins ++ [p.column]) ++
    (match p.grain with
      | some g => "@" ++ g.name
      | none => "") ++
    (if p.arguments.isEmpty then ""
      else "[" ++ Text.join "," (p.arguments.entries.map fun (n, v) => n ++ ":" ++ v) ++ "]")

/-- The path as a record. What is empty or absent is left out. -/
def toDatum (p : Path) : Datum :=
  .record (
    (if p.joins.isEmpty then [] else [("joins", .list (p.joins.map .text))]) ++
    [("column", .text p.column)] ++
    (match p.grain with
      | some g => [("grain", .text g.name)]
      | none => []) ++
    (if p.arguments.isEmpty then [] else [("arguments", p.arguments.toDatum)]))

/-- A path from its short form or from a record. In a record the grain has its exact name. -/
def ofDatum? : Datum → Option Path
  | .text s => (parse s).toOption
  | d => do
    if !d.isFinite then none
    let fs ← Datum.recordFields? ["joins", "column", "grain", "arguments"] d
    some {
      joins := ← fs.default? "joins" [] (Datum.list? Datum.text?)
      column := ← fs.required? "column" Datum.text?
      grain := ← fs.optional? "grain" (Datum.named? Grain.all Grain.name)
      arguments := ← fs.default? "arguments" .empty Arguments.ofDatum?
    }

end Path

end Rollup
