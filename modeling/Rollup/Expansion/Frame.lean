/-
Frames: columns whose formula is being expanded. A frame holds what is left of its template and the
text it has come to so far. A frame opened for a column of the model never holds more than the
longest template of the model.
-/
import Rollup.Expansion.Basic
import Rollup.Expansion.Key
import Rollup.Template.Reader

namespace Rollup

/-- The number of segments of a template text; none when it cannot be read. -/
def Template.size (text : String) : Nat :=
  match Template.parse text with
  | .ok t => t.length
  | .error _ => 0

/-- The largest size among the formulas of a column. -/
def Column.templateSize (c : Column) : Nat :=
  (c.grains.filterMap (·.formula)).foldr (fun f n => max (Template.size f) n)
    (Template.size c.formula)

/-- The largest size among all formulas. -/
def Model.longest (m : Model) : Nat :=
  m.columns.foldr (fun c n => max c.templateSize n) 0

theorem le_foldr_max {α : Type} (f : α → Nat) (start : Nat) {a : α} {as : List α} (h : a ∈ as) :
    f a ≤ as.foldr (fun a n => max (f a) n) start := by
  induction as with
  | nil => cases h
  | cons b rest ih =>
    simp only [List.foldr_cons]
    rcases List.mem_cons.1 h with rfl | h
    · exact Nat.le_max_left _ _
    · exact Nat.le_trans (ih h) (Nat.le_max_right _ _)

theorem start_le_foldr_max {α : Type} (f : α → Nat) (start : Nat) (as : List α) :
    start ≤ as.foldr (fun a n => max (f a) n) start := by
  induction as with
  | nil => exact Nat.le_refl _
  | cons b rest ih => exact Nat.le_trans ih (Nat.le_max_right _ _)

theorem Template.length_eq_size {text : String} {t : Template} (h : Template.parse text = .ok t) :
    t.length = Template.size text := by
  simp [Template.size, h]

theorem Model.AnyColumn.formula_le {m : Model} (c : m.AnyColumn) {t : Template}
    (h : Template.parse c.1.formula = .ok t) : t.length ≤ m.longest :=
  Template.length_eq_size h ▸
    Nat.le_trans (start_le_foldr_max _ _ _) (le_foldr_max Column.templateSize 0 c.2)

theorem Model.AnyColumn.grainFormula_le {m : Model} (c : m.AnyColumn) {d : GrainDef}
    (hd : d ∈ c.1.grains) {f : String} (hf : d.formula = some f) {t : Template}
    (h : Template.parse f = .ok t) : t.length ≤ m.longest :=
  Template.length_eq_size h ▸
    Nat.le_trans
      (le_foldr_max Template.size _ (List.mem_filterMap.2 ⟨d, hd, hf⟩))
      (le_foldr_max Column.templateSize 0 c.2)

/-- What makes two expansions the same: the place, the column, and its arguments and grain. -/
structure FrameKey where
  place : String
  column : String
  signature : String
  deriving DecidableEq, Repr

/-- A template being expanded. -/
structure Frame (m : Model) where
  table : m.Member
  path : JoinPath
  /-- The column it belongs to; none for the condition of a join. -/
  column : Option m.AnyColumn
  arguments : Arguments
  rest : Template
  out : String := ""
  /-- What the column came to, inside the formula of its grain. -/
  base : Option String := none
  /-- The grain to apply when the rest is done. -/
  grain : Option Grain := none
  key : Option FrameKey
  label : String

/-- A frame whose template is no longer than any of the model. -/
abbrev Frame.Opened (m : Model) := { f : Frame m // f.rest.length ≤ m.longest }

/-- The place of a table in keys and labels: its name at the root, the joins elsewhere. -/
def placeText (t : Table) (path : JoinPath) : String :=
  match path with
  | [] => t.name
  | path => Text.join "_" path

/-- The values of a column's declared arguments: fixed by the reference, else passed on by the
column that refers to it, else the default. Each value is checked. -/
def bindArguments (owner : String) (fixed passed : Arguments) :
    List Parameter → Except CompileError Arguments
  | ps => ps.foldlM (fun bound p =>
    match (fixed.get? p.name).orElse fun _ => (passed.get? p.name).orElse fun _ => p.default with
    | none => .ok bound
    | some v => match p.check v with
      | .ok () => .ok (bound.insert p.name v)
      | .error fault => .error (.invalidArgument owner p.name (.value fault))) .empty

/-- The grain a reference fixes. Every other fixed name must be declared by the column. -/
def fixedGrain (owner : String) (c : Column) (grain : Option Grain) :
    List (String × String) → Except CompileError (Option Grain)
  | [] => .ok grain
  | (name, value) :: rest =>
    if (c.parameter? name).isSome then fixedGrain owner c grain rest
    else if name == "grain" && c.isTime then
      match Grain.parse value with
      | .ok g => fixedGrain owner c (some g) rest
      | .error e => .error (.invalidArgument owner name (.unknownGrain e))
    else .error (.invalidArgument owner name .undeclaredByColumn)

/-- Reads a template that belongs to a table. -/
def readTemplate (t : Table) (reference text : String) :
    Except CompileError { u : Template // Template.parse text = .ok u } :=
  match Template.parse text with
  | .ok u => .ok ⟨u, rfl⟩
  | .error e => .error (.unresolvable t.name reference (.template e))

/-- Opens a column of a table for expansion. -/
def openColumn {m : Model} (t : m.Member) (path : JoinPath) (name : String)
    (fixed passed : Arguments) (grain : Option Grain) (reference : String) :
    Except CompileError (Frame.Opened m) := do
  let some c := Model.Member.column? t name |
    throw (.unresolvable t.1.name reference (.unknownColumn name))
  let owner := t.1.name ++ "." ++ c.1.name
  let arguments ← bindArguments owner fixed passed c.1.parameters
  let grain ← fixedGrain owner c.1 grain fixed.entries
  match grain with
  | some g =>
    if (c.1.grain? g).isNone then throw (.invalidArgument owner "grain" (.undeclaredGrain g))
  | none => pure ()
  let u ← readTemplate t.1 c.1.name c.1.formula
  let place := placeText t.1 path
  return ⟨{
    table := t
    path
    column := some c
    arguments
    rest := u.1
    grain
    key := some ⟨place, c.1.name, arguments.signature grain⟩
    label := place ++ "." ++ c.1.name }, c.formula_le u.2⟩

end Rollup
