/-
The shape of the statements of a plan: which clauses they have, and where their rows come from.
-/
import Rollup.Compile.Assembly
import Rollup.Proofs.Outcome
import Rollup.Proofs.Sql.Evaluation

namespace Rollup.Plan

open Sql

section

variable {p : Plan} {s : Select} {vs vs' : List Operand}

/-- The statement that reads the table and its joins has nothing but these and a condition. -/
theorem base_run (h : p.base.run vs = .ok (s, vs')) :
    ∃ condition, s = { source := some (sourceOf p.root p.rootAlias)
                       joins := p.joins.map joinedOf
                       condition } := by
  obtain ⟨condition, _, -, h⟩ := run_bind_ok h
  cases h
  exact ⟨condition, rfl⟩

theorem rows_run (h : p.rows.run vs = .ok (s, vs')) :
    ∃ base having vs₁, p.base.run vs = .ok (base, vs₁) ∧
      (p.filters.groups = none → having = none) ∧ s = { p.grouped base with having } := by
  obtain ⟨base, vs₁, hbase, h⟩ := run_bind_ok h
  obtain ⟨having, _, hhaving, h⟩ := run_bind_ok h
  cases h
  refine ⟨base, having, vs₁, hbase, fun hgroups => ?_, rfl⟩
  rw [hgroups] at hhaving
  cases hhaving
  rfl

theorem main_run (h : p.main.run vs = .ok (s, vs')) :
    ∃ rows orderBy vs₁, p.rows.run vs = .ok (rows, vs₁) ∧
      List.Forall₂ (fun k o => p.orderOf k = .ok o) p.query.sorting orderBy ∧
      s = { rows with orderBy, page := p.page? } := by
  obtain ⟨rows, vs₁, hrows, h⟩ := run_bind_ok h
  obtain ⟨orderBy, _, horder, h⟩ := run_bind_ok h
  cases h
  exact ⟨rows, orderBy, vs₁, hrows, run_mapM_lift horder, rfl⟩

end

section

variable {V : Type}

/-- The values of the dimensions in a row. -/
def groupKey (p : Plan) (r : SourceRow V) : List (Option V) :=
  p.dimensions.map fun g => r (.raw g.sql)

/-- A table of the model has the given rows. -/
theorem sourceRows_sourceOf [LinearOrder V] (db : Database V) (bag : List (SourceRow V)) (t : Table)
    (label : String) : sourceRows db bag (some (sourceOf t label)) = bag := by
  unfold sourceOf
  cases t.source <;> rfl

end

end Rollup.Plan
