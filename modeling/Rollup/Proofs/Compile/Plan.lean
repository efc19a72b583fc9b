/-
Where the parts of a plan come from: the runs that find them, and the query they are found for. A
plan without joins is its draft.
-/
import Rollup.Compile.Assembly
import Rollup.Proofs.Outcome

namespace Rollup

namespace Plan

/-- What a plan is made of: the parts found one after the other with one memory, the join paths they
read through, and what it takes over from the query. -/
structure Drafted {m : Model} (d : Dialect) (q : Query) (root : m.Member) (filters : Placement)
    (required : List JoinPath) (p : Plan) : Prop where
  dialect : p.dialect = d
  query : p.query = q
  root_eq : p.root = root.1
  rootAlias_eq : p.rootAlias = aliasFor d root.1 []
  filters_eq : p.filters = filters
  runs : ∃ outputJoins hiddenJoins rowJoins nestJoins memo₁ memo₂ memo₃ memo₄,
    (outputsOf ⟨d, false⟩ (Scope.of root q.arguments) [] q.projections).run [] =
      .ok ((p.outputs, outputJoins), memo₁) ∧
    (hiddenOf ⟨d, false⟩ (Scope.of root q.arguments) (projectedMetrics p.outputs)
      (filters.groups.toList.flatMap Filter.predicates)).run memo₁ =
      .ok ((p.hidden, hiddenJoins), memo₂) ∧
    (rowColumnsOf ⟨d, false⟩ (Scope.of root q.arguments) []
      (filters.rows.toList.flatMap Filter.predicates)).run memo₂ =
      .ok ((p.rowColumns, rowJoins), memo₃) ∧
    (nestingOf ⟨d, false⟩ (Scope.of root q.arguments) q p.metrics).run memo₃ =
      .ok ((p.nestBy, nestJoins), memo₄) ∧
    required = JoinPath.union (JoinPath.union (JoinPath.union outputJoins hiddenJoins) rowJoins)
      nestJoins

theorem drafted_of_draft {m : Model} {d : Dialect} {q : Query} {root : m.Member}
    {filters : Placement} {p : Plan} {required : List JoinPath}
    (h : (draft d q root filters).run' [] = .ok (p, required)) :
    Drafted d q root filters required p := by
  obtain ⟨⟨⟨p', required'⟩, memo⟩, hrun, hp⟩ := map_ok h
  cases hp
  obtain ⟨⟨outputs, _⟩, _, houtputs, hrun⟩ := run_bind_ok hrun
  obtain ⟨⟨hidden, _⟩, _, hhidden, hrun⟩ := run_bind_ok hrun
  obtain ⟨⟨rowColumns, _⟩, _, hrows, hrun⟩ := run_bind_ok hrun
  obtain ⟨⟨nestBy, _⟩, _, hnest, hrun⟩ := run_bind_ok hrun
  cases hrun
  exact ⟨rfl, rfl, rfl, rfl, rfl, _, _, _, _, _, _, _, _, houtputs, hhidden, hrows, hnest, rfl⟩

theorem draft_ok {m : Model} {d : Dialect} {q : Query} {root : m.Member} {filters : Placement}
    {p : Plan} {required : List JoinPath}
    (h : (draft d q root filters).run' [] = .ok (p, required)) :
    p.dialect = d ∧ p.filters = filters :=
  ⟨(drafted_of_draft h).dialect, (drafted_of_draft h).filters_eq⟩

/-- A plan is its draft with the joins that are planned for it. -/
theorem build_drafted {m : Model} {d : Dialect} {q : Query} {p : Plan} (h : build m d q = .ok p) :
    ∃ filters root required, Placement.of m q = .ok filters ∧ m.require q.table = .ok root ∧
      Drafted d q root filters required p ∧
      JoinPlan.of ⟨d, false⟩ (Scope.of root q.arguments) required = .ok p.joins := by
  obtain ⟨filters, hfilters, h⟩ := bind_ok h
  obtain ⟨root, hroot, h⟩ := bind_ok h
  obtain ⟨⟨p', required⟩, hdraft, h⟩ := bind_ok h
  obtain ⟨joins, hjoins, h⟩ := bind_ok h
  cases h
  obtain ⟨hdialect, hquery, hroot_eq, halias, hfilters_eq, hruns⟩ := drafted_of_draft hdraft
  exact ⟨filters, root, required, hfilters, hroot,
    ⟨hdialect, hquery, hroot_eq, halias, hfilters_eq, hruns⟩, hjoins⟩

theorem build_ok {m : Model} {d : Dialect} {q : Query} {p : Plan} (h : build m d q = .ok p) :
    p.dialect = d ∧ Placement.of m q = .ok p.filters := by
  obtain ⟨filters, root, required, hfilters, -, hp, -⟩ := build_drafted h
  exact ⟨hp.dialect, hp.filters_eq ▸ hfilters⟩

/-- A query whose draft and joins are known. -/
theorem build_of_joins {m : Model} {d : Dialect} {q : Query} {filters : Placement}
    {root : m.Member} {p : Plan} {required : List JoinPath} {joins : List PlannedJoin}
    (hfilters : Placement.of m q = .ok filters) (hroot : m.require q.table = .ok root)
    (hdraft : (draft d q root filters).run' [] = .ok (p, required))
    (hjoins : JoinPlan.of ⟨d, false⟩ (Scope.of root q.arguments) required = .ok joins) :
    build m d q = .ok { p with joins } := by
  simp only [build, hfilters, hroot, hdraft, hjoins, bind, Except.bind]
  rfl

/-- A query whose plan needs no joins. -/
theorem build_of_draft {m : Model} {d : Dialect} {q : Query} {filters : Placement}
    {root : m.Member} {p : Plan} (hfilters : Placement.of m q = .ok filters)
    (hroot : m.require q.table = .ok root)
    (hdraft : (draft d q root filters).run' [] = .ok (p, [])) :
    build m d q = .ok { p with joins := [] } := by
  refine build_of_joins hfilters hroot hdraft ?_
  rw [JoinPlan.of, JoinPlan.of?, JoinPlan.close]
  rfl

/-- A query whose plan needs no joins has a plan with the properties that its draft shows. -/
theorem build_shown {m : Model} {d : Dialect} {q : Query} {filters : Placement} {root : m.Member}
    (P : Plan → Bool) (hfilters : Placement.of m q = .ok filters)
    (hroot : m.require q.table = .ok root)
    (h : ((draft d q root filters).run' []).map (fun r => (r.2, P { r.1 with joins := [] })) =
      .ok ([], true)) : ∃ p, build m d q = .ok p ∧ P p = true := by
  obtain ⟨⟨p, required⟩, hdraft, hp⟩ := map_ok h
  simp only [Prod.mk.injEq] at hp
  obtain ⟨rfl, hP⟩ := hp
  exact ⟨_, build_of_draft hfilters hroot hdraft, hP⟩

/-- What is compiled has from its plan what is not in the statements. -/
theorem compile_rest {p : Plan} {c : Compiled} (h : p.compile = .ok c) :
    c.nested = p.nested ∧ c.dialect = p.dialect ∧ c.dataSource = p.root.dataSource ∧
      c.columns = p.columns := by
  obtain ⟨main, -, h⟩ := bind_ok h
  split at h
  · obtain ⟨count, -, h⟩ := bind_ok h
    cases h
    exact ⟨rfl, rfl, rfl, rfl⟩
  · cases h
    exact ⟨rfl, rfl, rfl, rfl⟩

end Plan

/-- A query compiles as its plan does. -/
theorem compile_of_build {m : Model} {d : Dialect} {q : Query} {p : Plan}
    (h : Plan.build m d q = .ok p) : compile m d q = p.compile := by
  rw [compile, h]
  rfl

/-- What is compiled for a dialect says so. -/
theorem dialect_of_compile {m : Model} {d : Dialect} {q : Query} {c : Compiled}
    (h : compile m d q = .ok c) : c.dialect = d := by
  obtain ⟨p, hbuild, hcompile⟩ := bind_ok h
  rw [(Plan.compile_rest hcompile).2.1, (Plan.build_ok hbuild).1]

end Rollup
