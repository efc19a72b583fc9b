/-
Output columns of plans. What a projection comes to depends on the memory of expansions, so it is
said for a whole run: at its end the memory holds, for every key, the expansion of the first
projection with that key, and every output column stands for its projection with the expansion
found there.
-/
import Rollup.Proofs.Compile.Plan
import Rollup.Proofs.Expansion.Memory

namespace Rollup

section

variable {m : Model} (mode : Mode) (scope : Scope m)

/-- What the expansion of a projection is remembered under. -/
def Projection.memoKey (x : Projection) : MemoKey :=
  ⟨scope.root.1.name, scope.arguments.signature none, x.path.joins, x.path.column,
    x.path.arguments.signature none, x.path.grain⟩

/-- The expansion of a projection without a memory. -/
def Projection.expansion (x : Projection) : Except CompileError Fragment :=
  expandColumn mode scope x.path.joins x.path.column x.path.arguments x.path.grain

/-- The expansion of the first projection with a key. -/
def firstExpansion (xs : List Projection) (k : MemoKey) : Option Fragment :=
  (xs.find? (·.memoKey scope = k)).bind fun x => (x.expansion mode scope).toOption

end

/-- The output column of a projection of a column that expands to some text. -/
def Projection.output (d : Dialect) (x : Projection) (c : Column) (sql : String) : Output where
  column := {
    name := x.name, label := Sql.fitName d x.name, role := x.role, grain := x.path.grain
    valueType := c.valueType, values := c.values }
  content := if x.role == .metric
    then .metric ⟨x.path, sql, c.aggregation, Sql.fitName d x.name⟩
    else .dimension ⟨sql, Sql.fitName d x.name⟩

theorem Projection.content_output_dimension {d : Dialect} {x : Projection} {c : Column}
    {sql : String} (h : x.role ≠ .metric) :
    (x.output d c sql).content = .dimension ⟨sql, Sql.fitName d x.name⟩ := by
  simp [output, h]

namespace Plan

section

variable {m : Model} {mode : Mode} {scope : Scope m} {taken : List String} {memo memo' : Memo}

theorem resolvePath_run {x : Projection} {f : Fragment}
    (h : (resolvePath mode scope x.path x.path.grain).run memo = .ok (f, memo')) :
    memo.lookup (x.memoKey scope) = some f ∧ memo' = memo ∨
      memo.lookup (x.memoKey scope) = none ∧ x.expansion mode scope = .ok f ∧
        memo' = (x.memoKey scope, f) :: memo :=
  resolveColumn_cases h

/-- What is remembered after a projection is expanded. -/
theorem lookup_resolvePath {x : Projection} {f : Fragment}
    (h : (resolvePath mode scope x.path x.path.grain).run memo = .ok (f, memo')) (k : MemoKey) :
    memo'.lookup (x.memoKey scope) = some f ∧
      memo'.lookup k = (memo.lookup k).or (firstExpansion mode scope [x] k) := by
  rcases resolvePath_run h with ⟨hf, rfl⟩ | ⟨hnone, hf, rfl⟩
  · refine ⟨hf, ?_⟩
    by_cases hk : x.memoKey scope = k
    · rw [← hk, hf]; rfl
    · simp [firstExpansion, hk]
  · refine ⟨by simp, ?_⟩
    by_cases hk : x.memoKey scope = k
    · subst hk
      simp [firstExpansion, hnone, hf, Except.toOption]
    · have hk' : (k == x.memoKey scope) = false := by simpa using Ne.symm hk
      simp [firstExpansion, hk, hk', List.lookup_cons]

theorem outputOf_run {x : Projection} {o : Output} {joins : List JoinPath}
    (h : (outputOf mode scope taken x).run memo = .ok ((o, joins), memo')) :
    ∃ t c f, locate scope.root x.path = .ok (t, c) ∧
      (resolvePath mode scope x.path x.path.grain).run memo = .ok (f, memo') ∧
      o = x.output mode.dialect c f.sql ∧ o.column.label ∉ taken ∧ joins = f.joins := by
  unfold outputOf at h
  obtain ⟨⟨t, c⟩, _, hlift, h⟩ := run_bind_ok h
  obtain ⟨_, hlocate, hlift⟩ := bind_ok hlift
  cases hlift
  obtain ⟨f, memo₁, hf, h⟩ := run_bind_ok h
  dsimp only at h
  split at h
  · obtain ⟨_, _, hfail, -⟩ := run_bind_ok h
    cases hfail
  · rename_i hfree
    cases h
    exact ⟨t, c, f, hlocate, hf, rfl, by simpa using hfree, rfl⟩

/-- What a run over projections makes of them: the memory holds their expansions besides what it
held before, and the output columns are read off it. -/
structure Shows (mode : Mode) (scope : Scope m) (taken : List String) (memo : Memo)
    (xs : List Projection) (os : List Output) (memo' : Memo) : Prop where
  lookup : ∀ k, memo'.lookup k = (memo.lookup k).or (firstExpansion mode scope xs k)
  outputs : List.Forall₂ (fun x o => ∃ t c f, locate scope.root x.path = .ok (t, c) ∧
    memo'.lookup (x.memoKey scope) = some f ∧ o = x.output mode.dialect c f.sql) xs os
  labels : (os.map (·.column.label)).Nodup ∧ ∀ o ∈ os, o.column.label ∉ taken

theorem outputsOf_run {xs : List Projection} {os : List Output} {joins : List JoinPath}
    (h : (outputsOf mode scope taken xs).run memo = .ok ((os, joins), memo')) :
    Shows mode scope taken memo xs os memo' := by
  induction xs generalizing taken memo os joins memo' with
  | nil =>
    cases h
    exact ⟨fun k => by simp [firstExpansion], .nil, by simp, by simp⟩
  | cons x xs ih =>
    unfold outputsOf at h
    obtain ⟨⟨o, joins₁⟩, memo₁, ho, h⟩ := run_bind_ok h
    obtain ⟨⟨os', joins₂⟩, memo₂, hos, h⟩ := run_bind_ok h
    cases h
    obtain ⟨t, c, f, hlocate, hf, ho, hfree, -⟩ := outputOf_run ho
    obtain ⟨hlookup, houtputs, hnodup, htaken⟩ := ih hos
    have hx := lookup_resolvePath hf
    refine ⟨fun k => ?_, .cons ⟨t, c, f, hlocate, ?_, ho⟩ houtputs, ?_, ?_⟩
    · -- a key without a memory is first met here or later on
      rw [hlookup]
      obtain ⟨hself, hk⟩ := hx k
      rw [hk]
      by_cases hkey : x.memoKey scope = k
      · cases hmemo : memo.lookup k with
        | some g => rfl
        | none =>
          rw [hkey, hk, hmemo, Option.none_or] at hself
          have hfirst : firstExpansion mode scope (x :: xs) k =
              firstExpansion mode scope [x] k := by
            simp [firstExpansion, hkey]
          rw [hfirst, Option.none_or, hself, Option.some_or]
      · simp [firstExpansion, hkey]
    · rw [hlookup, (hx (x.memoKey scope)).1]
      rfl
    · rw [List.map_cons, List.nodup_cons]
      refine ⟨fun hmem => ?_, hnodup⟩
      obtain ⟨o', ho', heq⟩ := List.mem_map.1 hmem
      exact htaken o' ho' (heq ▸ List.mem_cons_self)
    · intro o' ho'
      rcases List.mem_cons.1 ho' with rfl | ho'
      · exact hfree
      · exact fun hmem => htaken o' ho' (List.mem_cons_of_mem _ hmem)

theorem mem_groupings {os : List Output} {g : Grouping} :
    g ∈ groupings os ↔ ∃ o ∈ os, o.content = .dimension g := by
  simp only [groupings, List.mem_filterMap]
  refine exists_congr fun o => and_congr_right fun _ => ?_
  cases o.content <;> simp

theorem mem_projectedMetrics {os : List Output} {s : Metric} :
    s ∈ projectedMetrics os ↔ ∃ o ∈ os, o.content = .metric s := by
  simp only [projectedMetrics, List.mem_filterMap]
  refine exists_congr fun o => and_congr_right fun _ => ?_
  cases o.content <;> simp

/-! ## Plans -/

/-- What a plan for a query in a table consists of. -/
structure Drawn (d : Dialect) (q : Query) (root : m.Member) (p : Plan) : Prop where
  dialect : p.dialect = d
  query : p.query = q
  shows : ∃ memo, Shows ⟨d, false⟩ (Scope.of root q.arguments) [] [] q.projections p.outputs memo
  hidden : p.filters.groups = none → p.hidden = []
  nests : p.nested = true → ∀ s ∈ p.metrics, s.twoPass = true ∨ s.reaggregates = true

namespace Drawn

variable {d : Dialect} {q : Query} {root : m.Member} {p : Plan}

/-- Every output column stands for a projection. -/
theorem exists_projection (h : Drawn d q root p) {o : Output} (ho : o ∈ p.outputs) :
    ∃ x ∈ q.projections, ∃ c sql, o = x.output d c sql := by
  obtain ⟨memo, hshows⟩ := h.shows
  obtain ⟨x, hx, -, c, f, -, -, rfl⟩ := exists_beside hshows.outputs.flip ho
  exact ⟨x, hx, c, f.sql, rfl⟩

/-- A projected dimension is grouped by. -/
theorem dimensions_ne_nil (h : Drawn d q root p) (hq : q.dimensions ≠ []) : p.dimensions ≠ [] := by
  obtain ⟨x, hx⟩ := List.exists_mem_of_ne_nil _ hq
  obtain ⟨hx, hrole⟩ := List.mem_filter.1 hx
  obtain ⟨memo, hshows⟩ := h.shows
  obtain ⟨o, ho, -, c, f, -, -, rfl⟩ := exists_beside hshows.outputs hx
  have hmetric : x.role ≠ .metric := by simpa [Role.isDimension] using hrole
  exact List.ne_nil_of_mem (mem_groupings.2 ⟨_, ho, Projection.content_output_dimension hmetric⟩)

/-- Without projected metrics every output column is a dimension. -/
theorem content_of_plain (h : Drawn d q root p) (hq : q.isAggregated = false) :
    ∀ o ∈ p.outputs, ∃ g, o.content = .dimension g := by
  intro o ho
  obtain ⟨x, hx, c, sql, rfl⟩ := h.exists_projection ho
  have hmetric : x.role ≠ .metric := by simpa using List.any_eq_false.1 hq x hx
  exact ⟨_, Projection.content_output_dimension hmetric⟩

end Drawn

theorem checkNested_ok {d : Dialect} {metrics : List Metric}
    (h : checkNested d metrics = .ok ()) :
    ∀ s ∈ metrics, s.twoPass = true ∨ s.reaggregates = true := by
  intro s hs
  by_contra hno
  have := forM_ok h s hs
  simp_all

theorem nestingOf_run {q : Query} {metrics : List Metric} {found : List Grouping × List JoinPath}
    (h : (nestingOf mode scope q metrics).run memo = .ok (found, memo'))
    (htwo : metrics.any Metric.twoPass = true) :
    ∀ s ∈ metrics, s.twoPass = true ∨ s.reaggregates = true := by
  rw [nestingOf, if_pos htwo] at h
  obtain ⟨_, _, hlift, -⟩ := run_bind_ok h
  obtain ⟨⟨⟩, hcheck, -⟩ := bind_ok hlift
  exact checkNested_ok hcheck

theorem Drafted.drawn {d : Dialect} {q : Query} {root : m.Member} {filters : Placement}
    {required : List JoinPath} {p : Plan} (h : Drafted d q root filters required p) :
    Drawn d q root p := by
  obtain ⟨_, _, _, _, _, _, _, _, houtputs, hhidden, -, hnest, -⟩ := h.runs
  refine ⟨h.dialect, h.query, ⟨_, outputsOf_run houtputs⟩, fun hgroups => ?_, nestingOf_run hnest⟩
  rw [← h.filters_eq, hgroups] at hhidden
  exact (congrArg (fun found => found.1.1) (Except.ok.inj hhidden)).symm

theorem build_drawn {d : Dialect} {q : Query} {p : Plan} (h : build m d q = .ok p) :
    ∃ root, m.require q.table = .ok root ∧ Drawn d q root p := by
  obtain ⟨filters, root, required, -, hroot, hp, -⟩ := build_drafted h
  exact ⟨root, hroot, hp.drawn⟩

end

end Plan

end Rollup
