/-
Aggregated statements as grouped queries. What a statement selects from a table, or tests of its
groups, must be one of the expressions it groups by, or aggregate; what it groups by or tests row by
row must not aggregate. Metrics that are tested row by row were checked when the conditions were
placed. All else rests on formulas that aggregate as their columns say, which nobody checks.
-/
import Rollup.Proofs.Compile.RawMetrics
import Rollup.Proofs.Expansion.Aggregating

namespace Rollup

open Expansion (TellsValues)
open Sql

/-! ## Aggregate calls in expressions -/

namespace Sql.Expr

theorem embedsAggregate_call (d : Dialect) {function : String} (distinct : Bool) (args : List Expr)
    (h : hasAggregateCall false ((Text.upper function).toList ++ ['(']) = true) :
    embedsAggregate ((call function distinct args).render d) = true := by
  rw [embedsAggregate, render, toList_render, tokens, List.append_assoc, List.append_assoc,
    List.flatMap_append]
  refine hasAggregateCall_append ?_ _
  simpa [Token.render, Symbol.text] using h

end Sql.Expr

/-! ## Grouped queries -/

/-- A value that a group has: an expression it is grouped by, or one that calls an aggregate. -/
def Sql.Select.Gathers (d : Dialect) (s : Select) (e : Expr) : Prop :=
  e ∈ s.groupBy ∨ embedsAggregate (e.render d) = true

namespace Plan

/-- A condition is written from a filter, and what its predicates test has a property. -/
structure Tests (p : Plan) (column : Predicate → Except CompileError Expr) (f? : Option Filter)
    (e? : Option Expr) (P : Expr → Prop) : Prop where
  written : ∃ vs vs', (p.condition column f?).run vs = .ok (e?, vs')
  columns : ∀ t ∈ Filter.predicatesOf f?, ∃ e, column t = .ok e ∧ P e

/-- A grouped query: groups and conditions on rows call no aggregate, and what is selected, or tested
of the groups, is a value that a group has. -/
structure GroupsRows (p : Plan) (s : Select) : Prop where
  groupBy : ∀ e ∈ s.groupBy, embedsAggregate (e.render p.dialect) = false
  condition : p.Tests p.rowColumn p.filters.rows s.condition fun e =>
    embedsAggregate (e.render p.dialect) = false
  items : ∀ i ∈ s.items, s.Gathers p.dialect i.expr
  having : s.having = none ∨
    p.Tests p.groupColumn p.filters.groups s.having (s.Gathers p.dialect)

/-- What the texts of a plan must be for its statements to be grouped queries. -/
structure AggregatesApart (p : Plan) : Prop where
  groups : ∀ g ∈ p.dimensions ++ p.nestBy, embedsAggregate g.sql = false
  rows : ∀ e ∈ p.rowColumns, embedsAggregate e.2 = false
  metrics : ∀ s ∈ p.metrics, s.aggregation = none → embedsAggregate s.sql = true
  known : p.Known

/-! ## Statements -/

section

variable {p : Plan} {s base : Select} {vs vs' : List Operand}

theorem embedsAggregate_aggregate (d : Dialect) (a : Aggregation) (e : Expr) :
    embedsAggregate ((aggregate (some a) e).render d) = true := by
  cases a <;> exact Expr.embedsAggregate_call d _ _ (by decide +kernel)

theorem embedsAggregate_distinctCount (p : Plan) :
    embedsAggregate (p.distinctCount.render p.dialect) = true := by
  unfold distinctCount
  dsimp only
  split <;> exact Expr.embedsAggregate_call _ _ _ (by decide +kernel)

namespace AggregatesApart

/-- A metric is aggregated, or its formula aggregates. -/
theorem metric (h : p.AggregatesApart) {x : Metric} (hx : x ∈ p.metrics) :
    embedsAggregate ((aggregate x.aggregation (.raw x.sql)).render p.dialect) = true := by
  cases haggregation : x.aggregation with
  | none =>
    rw [aggregate, Expr.render_raw]
    exact h.metrics x hx haggregation
  | some a => exact embedsAggregate_aggregate _ a _

theorem rowColumn (h : p.AggregatesApart) {t : Predicate} {e : Expr}
    (he : p.rowColumn t = .ok e) : embedsAggregate (e.render p.dialect) = false := by
  unfold Plan.rowColumn at he
  split at he
  · rename_i sql hsql
    cases he
    obtain ⟨before, after, hcolumns, -⟩ := List.lookup_eq_some_iff.1 hsql
    rw [Expr.render_raw]
    exact h.rows (t.column, sql) (hcolumns ▸ List.mem_append_right _ List.mem_cons_self)
  · cases he

/-- The conditions on rows of a statement that reads the table call nothing. -/
theorem condition (h : p.AggregatesApart) (hbase : p.base.run vs = .ok (base, vs')) :
    p.Tests p.rowColumn p.filters.rows base.condition fun e =>
      embedsAggregate (e.render p.dialect) = false := by
  obtain ⟨condition, _, hcondition, hbase⟩ := run_bind_ok hbase
  cases hbase
  refine ⟨⟨_, _, hcondition⟩, fun t ht => ?_⟩
  obtain ⟨e, he⟩ := h.known.rows t ht
  exact ⟨e, he, h.rowColumn he⟩

theorem groups_raw (h : p.AggregatesApart) {gs : List Grouping}
    (hgs : ∀ g ∈ gs, g ∈ p.dimensions ++ p.nestBy) :
    ∀ e ∈ gs.map fun g => Expr.raw g.sql, embedsAggregate (e.render p.dialect) = false := by
  refine List.forall_mem_map.2 fun g hg => ?_
  rw [Expr.render_raw]
  exact h.groups g (hgs g hg)

/-- What a metric contributes to the inner statement is aggregated there. -/
theorem partials (h : p.AggregatesApart) {x : Metric} (hx : x ∈ p.metrics) :
    ∀ i ∈ p.partials x, embedsAggregate (i.expr.render p.dialect) = true := by
  intro i hi
  unfold Plan.partials at hi
  split at hi
  · rename_i htwo
    rw [List.mem_singleton.1 hi]
    rw [Metric.twoPass, Bool.and_eq_true] at htwo
    exact (congrArg embedsAggregate (Expr.render_raw _ _)).trans htwo.2
  · split at hi
    · rcases List.mem_cons.1 hi with rfl | hi
      · exact embedsAggregate_aggregate _ .sum _
      · rw [List.mem_singleton.1 hi]
        exact embedsAggregate_aggregate _ .count _
    · rw [List.mem_singleton.1 hi]
      exact h.metric hx

/-- The inner statement of two passes is a grouped query. -/
theorem innerSelect (h : p.AggregatesApart) (hbase : p.base.run vs = .ok (base, vs')) :
    p.GroupsRows (p.innerSelect base) where
  groupBy := h.groups_raw fun _ hg => hg
  condition := by
    have hcondition := h.condition hbase
    exact hcondition
  items := by
    refine List.forall_mem_append.2 ⟨List.forall_mem_map.2 fun g hg => ?_, fun i hi => ?_⟩
    · exact .inl (List.mem_map_of_mem hg)
    · obtain ⟨x, hx, hi⟩ := List.mem_flatMap.1 hi
      exact .inr (h.partials hx i hi)
  having := by
    obtain ⟨condition, rfl⟩ := base_run hbase
    exact .inl rfl

/-! In one pass the groups are the dimensions. -/

section

variable (hflat : p.nested = false) (hgroups : s.groupBy = p.dimensions.map fun g => .raw g.sql)

include hflat

theorem metricExpr (h : p.AggregatesApart) {x : Metric} (hx : x ∈ p.metrics) :
    s.Gathers p.dialect (p.metricExpr x) := by
  rw [Plan.metricExpr, hflat]
  exact .inr (h.metric hx)

include hgroups

theorem outputExpr (h : p.AggregatesApart) {o : Output} (ho : o ∈ p.outputs) :
    s.Gathers p.dialect (p.outputExpr o) := by
  unfold Plan.outputExpr
  split
  · rename_i g hg
    refine .inl ?_
    rw [Plan.dimensionExpr, hflat, hgroups]
    exact List.mem_map_of_mem (mem_groupings.2 ⟨o, ho, hg⟩)
  · rename_i x hx
    exact h.metricExpr hflat (List.mem_append_left _ (mem_projectedMetrics.2 ⟨o, ho, hx⟩))

theorem groupColumn (h : p.AggregatesApart) {t : Predicate} {e : Expr}
    (he : p.groupColumn t = .ok e) : s.Gathers p.dialect e := by
  unfold Plan.groupColumn at he
  split at he
  · rename_i x hx
    cases he
    exact h.metricExpr hflat (List.mem_of_find?_eq_some hx)
  · split at he
    · rename_i o ho
      cases he
      obtain ⟨x, -, ho⟩ := Option.bind_eq_some_iff.1 ho
      exact h.outputExpr hflat hgroups (List.mem_of_find?_eq_some ho)
    · cases he

end

/-- In one pass the statement that groups is a grouped query. -/
theorem groupsRows (h : p.AggregatesApart) (hflat : p.nested = false)
    (hagg : p.query.isAggregated = true) (hrows : p.rows.run vs = .ok (s, vs')) :
    p.GroupsRows s := by
  obtain ⟨base, vs₁, hbase, hrows⟩ := run_bind_ok hrows
  obtain ⟨having, _, hhaving, hrows⟩ := run_bind_ok hrows
  cases hrows
  have hgrouped : p.grouped base = { base with
      items := p.outputItems, groupBy := p.dimensions.map fun g => .raw g.sql } := by
    rw [Plan.grouped, hflat, hagg]
    rfl
  have hcondition := h.condition hbase
  rw [hgrouped]
  exact {
    groupBy := h.groups_raw fun _ hg => List.mem_append_left _ hg
    condition := hcondition
    items := List.forall_mem_map.2 fun o ho => h.outputExpr hflat rfl ho
    having := .inr ⟨⟨_, _, hhaving⟩, fun t ht => by
      obtain ⟨e, he⟩ := h.known.groups t ht
      exact ⟨e, he, h.groupColumn hflat rfl he⟩⟩ }

/-- Counting the distinct values of the dimensions is a grouped query with one group. -/
theorem directCount (h : p.AggregatesApart) (hbase : p.base.run vs = .ok (base, vs')) :
    p.GroupsRows { base with items := [labelled p.distinctCount "total"] } where
  groupBy := by
    obtain ⟨condition, rfl⟩ := base_run hbase
    exact fun e he => (List.not_mem_nil he).elim
  condition := by
    have hcondition := h.condition hbase
    exact hcondition
  items := List.forall_mem_singleton.2 (.inr (embedsAggregate_distinctCount p))
  having := by
    obtain ⟨condition, rfl⟩ := base_run hbase
    exact .inl rfl

end AggregatesApart

/-! ## Statements inside statements -/

/-- The order and the page of a grouped query change nothing. -/
theorem GroupsRows.ordered (h : p.GroupsRows s) (orderBy : List Order) (page : Option Page) :
    p.GroupsRows { s with orderBy, page } :=
  ⟨h.groupBy, h.condition, h.items, h.having⟩

/-- The statements inside another one that read the table are of a kind, and there is one. -/
def EachReading (p : Plan) (P : Select → Prop) (s : Select) : Prop :=
  (∃ r : Select, r.Within s ∧ r.source = some (sourceOf p.root p.rootAlias)) ∧
    ∀ r : Select, r.Within s → r.source = some (sourceOf p.root p.rootAlias) → P r

theorem sourceOf_ne_query {t : Table} {label : String} {s : Select} {alias? : Option String} :
    sourceOf t label ≠ ⟨.query s, alias?⟩ := by
  unfold sourceOf
  cases t.source <;> exact nofun

theorem eachReading_table {P : Select → Prop} (hs : s.source = some (sourceOf p.root p.rootAlias))
    (h : P s) : p.EachReading P s := by
  refine ⟨⟨s, .here, hs⟩, fun r hr _ => ?_⟩
  cases hr with
  | here => exact h
  | source hsource _ =>
    rw [hs] at hsource
    exact (sourceOf_ne_query (Option.some.inj hsource)).elim

theorem eachReading_query {P : Select → Prop} {t : Select} {label : Option String}
    (hs : s.source = some ⟨.query t, label⟩) (h : p.EachReading P t) : p.EachReading P s := by
  obtain ⟨⟨r, hr, hsource⟩, hall⟩ := h
  refine ⟨⟨r, .source hs hr, hsource⟩, fun r hr hsource => ?_⟩
  cases hr with
  | here =>
    rw [hs] at hsource
    exact (sourceOf_ne_query (Option.some.inj hsource).symm).elim
  | source hs' hr =>
    rw [hs] at hs'
    cases hs'
    exact hall r hr hsource

theorem eachReading_ordered (h : p.EachReading p.GroupsRows s) (orderBy : List Order)
    (page : Option Page) : p.EachReading p.GroupsRows { s with orderBy, page } := by
  obtain ⟨⟨r, hr, hsource⟩, hall⟩ := h
  cases hr with
  | here => exact eachReading_table hsource ((hall _ .here hsource).ordered orderBy page)
  | source hs hr =>
    refine eachReading_query hs ⟨⟨r, hr, hsource⟩, fun r' hr' => hall r' (.source hs hr')⟩

namespace AggregatesApart

variable (h : p.AggregatesApart) (hagg : p.query.isAggregated = true)

include h hagg

theorem eachReading_rows (hrows : p.rows.run vs = .ok (s, vs')) :
    p.EachReading p.GroupsRows s := by
  cases hnested : p.nested with
  | true =>
    obtain ⟨base, having, _, hbase, -, rfl⟩ := rows_run hrows
    have hsource : (p.grouped base).source = some ⟨.query (p.innerSelect base), some p.innerAlias⟩ := by
      rw [grouped, if_pos hnested]
    refine eachReading_query hsource (eachReading_table ?_ (h.innerSelect hbase))
    obtain ⟨condition, rfl⟩ := base_run hbase
    rfl
  | false =>
    refine eachReading_table ?_ (h.groupsRows hnested hagg hrows)
    obtain ⟨base, having, _, hbase, -, rfl⟩ := rows_run hrows
    obtain ⟨condition, rfl⟩ := base_run hbase
    rw [grouped, hnested, hagg]
    rfl

theorem eachReading_main (hmain : p.main.run vs = .ok (s, vs')) :
    p.EachReading p.GroupsRows s := by
  obtain ⟨rows, orderBy, _, hrows, -, rfl⟩ := main_run hmain
  exact eachReading_ordered (h.eachReading_rows hagg hrows) orderBy p.page?

theorem eachReading_countSelect (hcount : p.countSelect.run vs = .ok (s, vs')) :
    p.EachReading p.GroupsRows s := by
  unfold countSelect at hcount
  split at hcount
  · obtain ⟨base, _, hbase, hcount⟩ := run_bind_ok hcount
    cases hcount
    refine eachReading_table ?_ (h.directCount hbase)
    obtain ⟨condition, rfl⟩ := base_run hbase
    rfl
  · obtain ⟨rows, _, hrows, hcount⟩ := run_bind_ok hcount
    cases hcount
    exact eachReading_query rfl (h.eachReading_rows hagg hrows)

end AggregatesApart

end

end Plan

/-! ## Accepted queries -/

section

variable {m : Model} {d : Dialect} {r : Request} {q : Query} {root : m.Member} {p : Plan}

/-- Metrics are nested by dimensions. -/
theorem Model.nested_by_dimension (hcheck : m.check = .ok ()) {t : m.Member} {c : Column}
    (hc : c ∈ t.1.columns) {n : NestBy} (hn : n ∈ c.nestBy) {e : Column}
    (he : t.1.column? n.column = some e) : e.isMetric = false := by
  obtain ⟨earlier, hcolumn⟩ := Model.ok_of_checkEach (Model.columns_checked hcheck t) c hc
  obtain ⟨a, ns, hkind, hn⟩ : ∃ a ns, c.kind = .metric a ns ∧ n ∈ ns := by
    unfold Column.nestBy at hn
    split at hn
    · rename_i a ns hkind
      exact ⟨a, ns, hkind, hn⟩
    · cases hn
  have hnest : ((checkNestBy t.1 n).mapError (ModelFault.nestBy t.1.name c.name n.column)) = .ok () := by
    unfold checkColumn at hcolumn
    rw [hkind] at hcolumn
    dsimp only at hcolumn
    split at hcolumn
    · cases hcolumn
    · split at hcolumn
      · cases hcolumn
      · exact forM_ok hcolumn n hn
  unfold checkNestBy at hnest
  rw [he] at hnest
  dsimp only at hnest
  split at hnest
  · cases hnest
  · rename_i hmetric
    simpa using hmetric

namespace Plan

theorem Sourced.has {required : List JoinPath} {scope : Scope m} {x : Path} {grain : Option Grain}
    {sql : String} {kind : Column → Prop} {P : String → Prop}
    (h : Sourced ⟨d, false⟩ scope required x grain sql) (hall : m.EachExpansion d kind P)
    {t : m.Member} {c : Column} (ht : followJoins scope.root x.joins = .ok t)
    (hc : t.1.column? x.column = some c) (hkind : kind c) : P sql := by
  obtain ⟨arguments, f, -, hf, rfl, -⟩ := h
  exact hall scope _ _ _ _ t c f ht hc hkind hf

/-- In an accepted model whose formulas aggregate as declared, the texts of a plan are what they must
be. -/
theorem aggregatesApart_of_build (hcheck : m.check = .ok ()) (hquery : Query.build m r = .ok q)
    (hagg : q.isAggregated = true) (h : build m d q = .ok p) (hdeclared : m.AggregatesAsDeclared d)
    (htells : ∀ c ∈ m.columns, c.isMetric = true → TellsValues .empty c.parameters) :
    p.AggregatesApart := by
  obtain ⟨root, required, hroot, hp, -⟩ := build_holds h
  obtain ⟨root', hroot', hroles⟩ := Query.role_of_build hquery
  cases hroot.symm.trans hroot'
  constructor
  case groups =>
    refine List.forall_mem_append.2 ⟨fun g hg => ?_, fun g hg => ?_⟩
    · obtain ⟨o, ho, hg⟩ := mem_groupings.1 hg
      obtain ⟨x, hx, t, c, sql, hlocate, hsql, rfl⟩ := exists_beside hp.outputs.flip ho
      obtain ⟨ht, hc⟩ := locate_ok hlocate
      have hrole := hroles x hx t c hlocate
      by_cases hmetric : (x.role == .metric) = true
      · rw [Projection.output, if_pos hmetric] at hg
        cases hg
      · rw [Projection.output, if_neg hmetric] at hg
        cases hg
        refine hsql.has hdeclared.dimensions ht hc ?_
        rw [Column.isMetric, ← hrole]
        simpa using hmetric
    · cases hnested : p.nested with
      | false =>
        rw [hp.flat hnested] at hg
        cases hg
      | true =>
        obtain ⟨x, ⟨s, hs, t, c, n, u, e, hlocate, hn, hcolumn, rfl⟩, -, -, hsql⟩ :=
          (hp.nests hnested).sourced g hg
        -- the metric and what it is nested by are in one table
        obtain ⟨ht, hc⟩ := locate_ok hlocate
        obtain ⟨hu, he⟩ := locate_ok hcolumn
        cases ht.symm.trans hu
        exact hsql.has hdeclared.dimensions hu he
          (Model.nested_by_dimension hcheck (List.mem_of_find?_eq_some hc) hn he)
  case rows =>
    intro e he
    obtain ⟨u, c, hlocate, hraw⟩ := rowColumn_calls_none hquery hagg hroot h htells e he
    obtain ⟨hu, hc⟩ := locate_ok hlocate
    cases hmetric : c.isMetric with
    | true => exact hraw hmetric
    | false => exact (hp.rowColumns e he).2.has hdeclared.dimensions hu hc hmetric
  case metrics =>
    intro s hs hnone
    rcases List.mem_append.1 hs with hs | hs
    · obtain ⟨o, ho, hs⟩ := mem_projectedMetrics.1 hs
      obtain ⟨x, hx, t, c, sql, hlocate, hsql, rfl⟩ := exists_beside hp.outputs.flip ho
      obtain ⟨ht, hc⟩ := locate_ok hlocate
      have hrole := hroles x hx t c hlocate
      by_cases hmetric : (x.role == .metric) = true
      · rw [Projection.output, if_pos hmetric] at hs
        cases hs
        refine hsql.has hdeclared.metrics ht hc ⟨?_, hnone⟩
        rw [Column.isMetric, ← hrole, hmetric]
      · rw [Projection.output, if_neg hmetric] at hs
        cases hs
    · obtain ⟨u, c, hlocate, hmetric, haggregation⟩ :=
        (recalled_of_build hquery hroot h).1 s hs
      obtain ⟨_, -, -, hsql⟩ := hp.hidden s hs
      obtain ⟨hu, hc⟩ := locate_ok hlocate
      exact hsql.has hdeclared.metrics hu hc ⟨hmetric, haggregation ▸ hnone⟩
  case known => exact known_of_build h

end Plan

/-- A statement is written from one in which every statement that reads the table is a grouped
query. -/
def Statement.GroupsRows (st : Statement) (p : Plan) (x : Binding Select) : Prop :=
  ∃ s, x.run [] = .ok (s, st.params) ∧ st.sql = s.render p.dialect ∧ p.EachReading p.GroupsRows s

/-- Where formulas aggregate as declared, and the arguments of metrics are told by the text of their
values, the statements of an aggregated query are grouped queries, in one pass and in two. -/
theorem compile_groupsRows {c : Compiled} (hcheck : m.check = .ok ())
    (hquery : Query.build m r = .ok q) (hagg : q.isAggregated = true)
    (hdeclared : m.AggregatesAsDeclared d)
    (htells : ∀ c ∈ m.columns, c.isMetric = true → TellsValues .empty c.parameters)
    (h : compile m d q = .ok c) :
    ∃ p, Plan.build m d q = .ok p ∧ c.main.GroupsRows p p.main ∧
      ∀ st ∈ c.count, st.GroupsRows p p.countSelect := by
  obtain ⟨p, hbuild, hcompile⟩ := bind_ok h
  have happart := Plan.aggregatesApart_of_build hcheck hquery hagg hbuild hdeclared htells
  obtain ⟨root, -, hdrawn⟩ := Plan.build_drawn hbuild
  have hagg : p.query.isAggregated = true := by rw [hdrawn.query, hagg]
  obtain ⟨hmain, hcount⟩ := Plan.compile_ok hcompile
  refine ⟨p, hbuild, ?_, fun st hst => ?_⟩
  · obtain ⟨s, params, hrun, hc⟩ := Plan.statement_ok hmain
    rw [hc]
    exact ⟨s, hrun, rfl, happart.eachReading_main hagg hrun⟩
  · obtain ⟨s, params, hrun, rfl⟩ := Plan.statement_ok (hcount st hst)
    exact ⟨s, hrun, rfl, happart.eachReading_countSelect hagg hrun⟩

end

/-! ## Regattas -/

/-- Crews in races. Victories are counted by their own formula. -/
def rowing : Model where
  tables := [
    { name := "races"
      source := .physical (some "rowing") "races"
      columns := [
        { name := "crew", formula := "\x7b\x7b$crew\x7d\x7d", kind := .dimension },
        { name := "boat", formula := "\x7b\x7b$kind\x7d\x7d || ' of ' || \x7b\x7b$built\x7d\x7d"
          kind := .dimension },
        { name := "distance", formula := "\x7b\x7b$meters\x7d\x7d / 1000"
          kind := .metric (some .sum) [] },
        { name := "fouls", formula := "\x7b\x7b$fouls\x7d\x7d", kind := .metric (some .sum) [] },
        { name := "victories", formula := "COUNT(\x7b\x7b$won_at\x7d\x7d)"
          kind := .metric none [] }] }]

/-- The races of the rowing model. -/
def rowingRaces : rowing.Member := ⟨rowing.tables.head (by decide), List.mem_cons_self⟩

/-- How far crews that won twice rowed, in races without fouls. -/
def fairDistances : Query where
  table := "races"
  arguments := .empty
  projections := [⟨{ column := "crew" }, .dimension, "crew"⟩,
    ⟨{ column := "boat" }, .dimension, "boat"⟩, ⟨{ column := "distance" }, .metric, "distance"⟩]
  whereFilter := some (.test ⟨{ column := "fouls" }, .compare .eq, [.int 0]⟩)
  havingFilter := some (.test ⟨{ column := "victories" }, .compare .ge, [.int 2]⟩)
  sorting := []
  pagination := some { limit := some 3, wantTotal := true }
  bypassCache := false

/-- The fouls are tested row by row, and the victories only of groups. -/
theorem compile_groupsRows_fairDistances :
    let request : Request := {
      table := "races"
      select := fairDistances.projections.map fun x => { column := x.path }
      filter := fairDistances.whereFilter
      having := fairDistances.havingFilter
      pagination := fairDistances.pagination }
    Model.build rowing.tables = .ok rowing ∧ rowing.check = .ok () ∧
    Query.build rowing request = .ok fairDistances ∧ fairDistances.isAggregated = true ∧
    rowing.AggregatesAsDeclared .tsql ∧
    (∀ c ∈ rowing.columns, c.isMetric = true → TellsValues .empty c.parameters) ∧
    ∃ c p st, compile rowing .tsql fairDistances = .ok c ∧
      Plan.build rowing .tsql fairDistances = .ok p ∧ c.main.GroupsRows p p.main ∧
      c.count = some st ∧ st.GroupsRows p p.countSelect := by
  intro request
  have hcheck : rowing.check = .ok () := by decide +kernel
  have hquery : Query.build rowing request = .ok fairDistances := by decide +kernel
  have hdeclared : rowing.AggregatesAsDeclared .tsql :=
    Model.aggregatesAsDeclared_of_shown (by decide +kernel) (by decide +kernel) _
  have htells : ∀ c ∈ rowing.columns, c.isMetric = true → TellsValues .empty c.parameters := by
    have hnone : ∀ c ∈ rowing.columns, c.parameters = [] := by decide +kernel
    intro c hc _
    rw [hnone c hc]
    exact Expansion.tellsValues_of_plain (fun _ he => by cases he) fun _ hp => by cases hp
  have hfilters : Placement.of rowing fairDistances =
      .ok ⟨fairDistances.whereFilter, fairDistances.havingFilter⟩ := by decide +kernel
  have hroot : rowing.require fairDistances.table = .ok rowingRaces := rfl
  obtain ⟨p, hbuild, hshown⟩ := Plan.build_shown (d := .tsql)
    (fun p => p.compile.toOption.any (·.count.isSome)) hfilters hroot (by decide +kernel)
  obtain ⟨c, hc, hcount⟩ := (Option.any_eq_true _ _).1 hshown
  obtain ⟨st, hst⟩ := Option.isSome_iff_exists.1 hcount
  have hcompile : compile rowing .tsql fairDistances = .ok c :=
    (compile_of_build hbuild).trans (ok_of_toOption hc)
  obtain ⟨p', hbuild', hmain, hcounts⟩ :=
    compile_groupsRows hcheck hquery rfl hdeclared htells hcompile
  cases hbuild.symm.trans hbuild'
  exact ⟨by decide +kernel, hcheck, hquery, rfl, hdeclared, htells, c, p, st, hcompile, hbuild,
    hmain, hst, hcounts st hst⟩

/-- The times of crews. The metric has no aggregation, and its formula none either. -/
def timing : Model where
  tables := [
    { name := "times"
      source := .physical none "times"
      columns := [
        { name := "crew", formula := "\x7b\x7b$crew\x7d\x7d", kind := .dimension },
        { name := "seconds", formula := "\x7b\x7b$seconds\x7d\x7d", kind := .metric none [] }] }]

/-- The times in their model. -/
def timingTimes : timing.Member := ⟨timing.tables.head (by decide), List.mem_cons_self⟩

/-- The seconds of each crew. -/
def crewSeconds : Query :=
  { fairDistances with
    table := "times"
    projections := [⟨{ column := "crew" }, .dimension, "crew"⟩,
      ⟨{ column := "seconds" }, .metric, "seconds"⟩]
    whereFilter := none
    havingFilter := none
    pagination := none }

/-- What a plan shows of a statement in one pass that selects a value no group has. -/
def Plan.showsLoose (text : String) (p : Plan) : Bool :=
  !p.nested && p.compile.toOption.any (·.main.sql == text) &&
    (p.main.run []).toOption.any fun x => x.1.items.any fun i =>
      !embedsAggregate (i.expr.render p.dialect) &&
        !(x.1.groupBy.map (·.render p.dialect)).contains (i.expr.render p.dialect)

/-- The model is accepted, and its statement selects the seconds, which are neither aggregated nor
grouped by. -/
theorem compile_ungrouped_crewSeconds :
    let request : Request := {
      table := "times"
      select := crewSeconds.projections.map fun x => { column := x.path } }
    let text := "SELECT\n  \"times\".\"crew\" AS \"crew\",\n" ++
      "  \"times\".\"seconds\" AS \"seconds\"\nFROM \"times\" AS \"times\"\n" ++
      "GROUP BY \"times\".\"crew\""
    Model.build timing.tables = .ok timing ∧
    Query.build timing request = .ok crewSeconds ∧ crewSeconds.isAggregated = true ∧
    ∃ c p, compile timing .sqlite crewSeconds = .ok c ∧
      Plan.build timing .sqlite crewSeconds = .ok p ∧ c.main.sql = text ∧
      ¬ c.main.GroupsRows p p.main := by
  intro request text
  have hfilters : Placement.of timing crewSeconds = .ok {} := by decide +kernel
  have hroot : timing.require crewSeconds.table = .ok timingTimes := rfl
  obtain ⟨p, hbuild, hshown⟩ := Plan.build_shown (d := .sqlite) (Plan.showsLoose text) hfilters
    hroot (by decide +kernel)
  simp only [Plan.showsLoose, Bool.and_eq_true, Bool.not_eq_true'] at hshown
  obtain ⟨⟨hflat, htext⟩, hloose⟩ := hshown
  obtain ⟨c, hc, htext⟩ := (Option.any_eq_true _ _).1 htext
  obtain ⟨⟨s, params⟩, hs, hloose⟩ := (Option.any_eq_true _ _).1 hloose
  obtain ⟨i, hi, hloose⟩ := List.any_eq_true.1 hloose
  rw [Bool.and_eq_true, Bool.not_eq_true', Bool.not_eq_true'] at hloose
  have hcompile : compile timing .sqlite crewSeconds = .ok c :=
    (compile_of_build hbuild).trans (ok_of_toOption hc)
  refine ⟨by decide +kernel, by decide +kernel, rfl, c, p, hcompile, hbuild, eq_of_beq htext, ?_⟩
  rintro ⟨s', hs', -, -, hall⟩
  cases (ok_of_toOption hs).symm.trans hs'
  have hsource : s.source = some (Plan.sourceOf p.root p.rootAlias) := by
    obtain ⟨-, ⟨-, hsource, -⟩ | ⟨hnested, -⟩⟩ := Plan.outermost_main hs'
    · exact hsource
    · cases hflat.symm.trans hnested
  rcases (hall s .here hsource).items i hi with hgroup | hcall
  · have hmem := List.mem_map_of_mem (f := (·.render p.dialect)) hgroup
    rw [← List.contains_iff_mem, hloose.2] at hmem
    cases hmem
  · cases hloose.1.symm.trans hcall

end Rollup
