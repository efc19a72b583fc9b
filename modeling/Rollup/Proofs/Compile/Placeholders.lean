/-
The placeholders of compiled statements. Positions are given out while the conditions are walked,
and the text is laid out afterwards: the conditions on rows come before those on groups in both,
also where the rows are read by an inner statement, and in the statement that counts. So the first
placeholder of a text is that of the first value bound, and so on to the last.
-/
import Rollup.Compile.Assembly
import Rollup.Proofs.Compile.Binding
import Rollup.Proofs.Compile.Plan
import Rollup.Proofs.Filter.Placement

namespace Rollup

open Sql

/-- What a condition binds, if there is one. -/
def boundBy (f? : Option Filter) : List Operand :=
  (Filter.predicatesOf f?).flatMap Predicate.bound

/-- The operands of placed conditions fit, for they were checked before they were placed. -/
theorem Placement.fits_of_placed {m : Model} {q : Query} {p : Placement} (h : of m q = .ok p) :
    ∀ t ∈ Filter.predicatesOf p.rows ++ Filter.predicatesOf p.groups, t.Fits := by
  intro t ht
  rw [(predicates_of_placed h).1.mem_iff, List.mem_flatMap] at ht
  obtain ⟨f, hf, ht⟩ := ht
  obtain ⟨root, -, hchecked, -⟩ := of_cases h
  obtain ⟨found, -, hcheck⟩ := hchecked f hf t ht
  exact fits_of_checkOperator hcheck

namespace Plan

/-- The SQL texts of the model that a plan holds, with their references expanded. -/
def texts (p : Plan) : List String :=
  p.dimensions.map (·.sql) ++ p.metrics.map (·.sql) ++ p.nestBy.map (·.sql) ++
    p.rowColumns.map (·.2) ++ p.joins.filterMap (·.on) ++
    (p.root :: p.joins.map (·.table)).filterMap fun t => match t.source with
      | .physical _ _ => none
      | .subquery sql => some sql

/-! ## Values without parameters -/

section

variable {p : Plan}

/-- An expression without parameters, with texts of the plan. -/
abbrev Plain (p : Plan) (e : Expr) : Prop :=
  Carries p.dialect p.texts e.tokens []

theorem plain_aggregate {e : Expr} (he : p.Plain e) (a : Option Aggregation) :
    p.Plain (aggregate a e) := by
  have hcall : ∀ f ∈ functionNames, p.Plain (.function f e) := fun f hf =>
    Expr.carries_function hf he
  cases a with
  | none => exact he
  | some a =>
    cases a with
    | sum => exact hcall "SUM" (by decide)
    | min => exact hcall "MIN" (by decide)
    | max => exact hcall "MAX" (by decide)
    | count => exact hcall "COUNT" (by decide)
    | avg => exact hcall "AVG" (by decide)
    | countDistinct =>
      have hcount : "COUNT" ∈ functionNames := by decide
      exact Expr.carries_call hcount true (.singleton he)

theorem plain_inner (p : Plan) (label : String) : p.Plain (p.inner label) :=
  Expr.carries_column _ _ _

theorem plain_metric {s : Metric} (hs : s ∈ p.metrics) : p.Plain (.raw s.sql) := by
  refine Expr.carries_raw _ ?_
  simp only [texts, List.mem_append, List.mem_map]
  exact .inl (.inl (.inl (.inl (.inr ⟨s, hs, rfl⟩))))

theorem plain_grouping {g : Grouping} (hg : g ∈ p.dimensions ++ p.nestBy) :
    p.Plain (.raw g.sql) := by
  refine Expr.carries_raw _ ?_
  simp only [texts, List.mem_append, List.mem_map]
  rcases List.mem_append.1 hg with hg | hg
  · exact .inl (.inl (.inl (.inl (.inl ⟨g, hg, rfl⟩))))
  · exact .inl (.inl (.inl (.inr ⟨g, hg, rfl⟩)))

theorem plain_dimensionExpr {g : Grouping} (hg : g ∈ p.dimensions) :
    p.Plain (p.dimensionExpr g) := by
  unfold dimensionExpr
  split
  · exact plain_inner p _
  · exact plain_grouping (List.mem_append_left _ hg)

theorem plain_metricExpr {s : Metric} (hs : s ∈ p.metrics) : p.Plain (p.metricExpr s) := by
  have hsum : ∀ label, p.Plain (p.inner label).sum := fun label =>
    plain_aggregate (plain_inner p label) (some .sum)
  unfold metricExpr
  split
  · exact plain_aggregate (plain_metric hs) _
  · split
    · exact plain_aggregate (plain_inner p _) _
    · split
      · exact hsum _
      · have hscale : p.Plain (.raw "1.0") := Expr.carries_fixed _ (by decide)
        exact Expr.carries_binary (Expr.carries_binary (hsum _) .mul hscale) .div (hsum _)
      · exact plain_aggregate (plain_inner p _) _

theorem plain_outputExpr {o : Output} (ho : o ∈ p.outputs) : p.Plain (p.outputExpr o) := by
  unfold outputExpr
  split
  · rename_i g hg
    refine plain_dimensionExpr (List.mem_filterMap.2 ⟨o, ho, ?_⟩)
    rw [hg]
  · rename_i s hs
    refine plain_metricExpr (List.mem_append_left _ (List.mem_filterMap.2 ⟨o, ho, ?_⟩))
    rw [hs]

theorem plain_rowColumn {t : Predicate} {e : Expr} (h : p.rowColumn t = .ok e) : p.Plain e := by
  unfold rowColumn at h
  split at h
  · rename_i sql hsql
    cases h
    refine Expr.carries_raw _ ?_
    obtain ⟨before, after, hcolumns, -⟩ := List.lookup_eq_some_iff.1 hsql
    have hmem : (t.column, sql) ∈ p.rowColumns := by
      rw [hcolumns]
      exact List.mem_append_right _ List.mem_cons_self
    simp only [texts, List.mem_append, List.mem_map]
    exact .inl (.inl (.inr ⟨_, hmem, rfl⟩))
  · cases h

theorem plain_groupColumn {t : Predicate} {e : Expr} (h : p.groupColumn t = .ok e) :
    p.Plain e := by
  unfold groupColumn at h
  split at h
  · rename_i s hs
    cases h
    exact plain_metricExpr (List.mem_of_find?_eq_some hs)
  · split at h
    · rename_i o ho
      cases h
      obtain ⟨d, -, ho⟩ := Option.bind_eq_some_iff.1 ho
      exact plain_outputExpr (List.mem_of_find?_eq_some ho)
    · cases h

/-! ## Sources and lists without parameters -/

theorem plain_source {t : Table} (ht : t ∈ p.root :: p.joins.map (·.table)) (label : String) :
    Carries p.dialect p.texts ((sourceOf t label).tokens p.dialect) [] := by
  refine carries_source ?_ _
  split
  · exact carries_table _ _ _
  · rename_i sql hsql
    refine Carries.parens (carries_raw _ ?_)
    refine List.mem_append_right _ (List.mem_filterMap.2 ⟨t, ht, ?_⟩)
    rw [hsql]

theorem plain_joined {j : PlannedJoin} (hj : j ∈ p.joins) :
    Carries p.dialect p.texts ((joinedOf j).tokens p.dialect) [] := by
  refine carries_joined (plain_source (List.mem_cons_of_mem _ (List.mem_map_of_mem hj)) _) ?_
  intro e he
  obtain ⟨sql, hsql, rfl⟩ := Option.map_eq_some_iff.1 he
  refine Expr.carries_raw _ ?_
  simp only [texts, List.mem_append, List.mem_filterMap]
  exact .inl (.inr ⟨j, hj, hsql⟩)

theorem plain_outputItems : ∀ i ∈ p.outputItems, p.Plain i.expr := by
  intro i hi
  obtain ⟨o, ho, rfl⟩ := List.mem_map.1 hi
  exact plain_outputExpr ho

theorem plain_partials {s : Metric} (hs : s ∈ p.metrics) : ∀ i ∈ p.partials s, p.Plain i.expr := by
  have hvalue := fun a => plain_aggregate (plain_metric hs) a
  intro i hi
  unfold partials at hi
  split at hi
  · rw [List.mem_singleton.1 hi]
    exact plain_metric hs
  · split at hi
    · rcases List.mem_cons.1 hi with rfl | hi
      · exact hvalue (some .sum)
      · rw [List.mem_singleton.1 hi]
        exact hvalue (some .count)
    · rw [List.mem_singleton.1 hi]
      exact hvalue _

theorem plain_orderOf {k : SortKey} {o : Order} (h : p.orderOf k = .ok o) : p.Plain o.expr := by
  unfold orderOf at h
  split at h
  · rename_i found hfound
    cases h
    dsimp only
    split
    · exact Expr.carries_column _ _ _
    · exact plain_outputExpr (List.mem_of_find?_eq_some hfound)
  · split at h <;> cases h

theorem plain_distinctCount : p.Plain p.distinctCount := by
  have hcount : "COUNT" ∈ functionNames := by decide
  have hgroups : CarriesAll p.dialect p.texts
      ((p.dimensions.map fun g => Expr.raw g.sql).map Expr.tokens) [] := by
    refine .of_forall fun ts hts => ?_
    obtain ⟨e, he, rfl⟩ := List.mem_map.1 hts
    obtain ⟨g, hg, rfl⟩ := List.mem_map.1 he
    exact plain_grouping (List.mem_append_left _ hg)
  unfold distinctCount
  dsimp only
  split
  · exact Expr.carries_call hcount true (.singleton (Expr.carries_tuple hgroups))
  · exact Expr.carries_call hcount true hgroups

/-! ## Statements -/

/-- The statement has these parameters, those of its source first. -/
def Has (p : Plan) (s : Select) (ns : List Nat) : Prop :=
  ∃ ks ls ms, s.Parts p.dialect p.texts ks ls ms ∧ ns = ks ++ ls ++ ms

theorem Has.carries {s : Select} {ns : List Nat} (h : p.Has s ns) :
    Carries p.dialect p.texts (s.tokens p.dialect) ns := by
  obtain ⟨ks, ls, ms, hparts, rfl⟩ := h
  exact hparts.carries

/-- The operands of the conditions of a plan fit. -/
def Fitting (p : Plan) : Prop :=
  ∀ t ∈ Filter.predicatesOf p.filters.rows ++ Filter.predicatesOf p.filters.groups, t.Fits

theorem binds_condition {column : Predicate → Except CompileError Expr} {f? : Option Filter}
    (hcolumn : ∀ t e, column t = .ok e → p.Plain e)
    (hfits : ∀ t ∈ Filter.predicatesOf f?, t.Fits) :
    Binds (p.condition column f?) (boundBy f?) (Expr.CarriesOption p.dialect p.texts) := by
  cases f? with
  | none => exact binds_pure (.nil _)
  | some f =>
    rw [boundBy, Filter.predicatesOf_some]
    exact Condition.binds_ofFilter fun t ht =>
      ⟨hcolumn t, hfits t (by rwa [Filter.predicatesOf_some])⟩

/-- The statement that reads the rows has the parameters of the conditions on rows; it selects and
groups nothing yet. -/
theorem binds_base (hp : p.Fitting) :
    Binds p.base (boundBy p.filters.rows) fun s ns =>
      s.Parts p.dialect p.texts [] ns [] ∧ s.having = none ∧ s.orderBy = [] := by
  refine (binds_condition (fun t e => plain_rowColumn)
    fun t ht => hp t (List.mem_append_left _ ht)).map fun e? ns he => ⟨?_, rfl, rfl⟩
  exact {
    items := fun i hi => by cases hi
    source := .singleton (plain_source List.mem_cons_self _)
    joins := fun j hj => by
      obtain ⟨k, hk, rfl⟩ := List.mem_map.1 hj
      exact plain_joined hk
    condition := he
    groupBy := fun e he => by cases he
    having := .nil _
    orderBy := fun o ho => by cases ho }

theorem parts_innerSelect {base : Select} {ns : List Nat}
    (h : base.Parts p.dialect p.texts [] ns []) :
    (p.innerSelect base).Parts p.dialect p.texts [] ns [] := by
  refine { h with items := fun i hi => ?_, groupBy := fun e he => ?_ }
  · rcases List.mem_append.1 hi with hi | hi
    · obtain ⟨g, hg, rfl⟩ := List.mem_map.1 hi
      exact plain_grouping hg
    · obtain ⟨s, hs, hi⟩ := List.mem_flatMap.1 hi
      exact plain_partials hs i hi
  · obtain ⟨g, hg, rfl⟩ := List.mem_map.1 he
    exact plain_grouping hg

/-- Of two passes the first holds the conditions on rows, as the source of the second. -/
theorem parts_grouped {base : Select} {ns ms : List Nat} {having : Option Expr}
    (h : base.Parts p.dialect p.texts [] ns [])
    (hhaving : Expr.CarriesOption p.dialect p.texts having ms) :
    p.Has { p.grouped base with having } (ns ++ ms) := by
  unfold grouped
  split
  · -- the inner statement is the source of the outer one, and nothing stands before it
    have hinner := (parts_innerSelect h).carries
    rw [List.nil_append, List.append_nil] at hinner
    refine ⟨ns, [], ms, ?_, by rw [List.append_nil]⟩
    exact {
      items := plain_outputItems
      source := .singleton (carries_source (carries_query hinner) _)
      joins := fun j hj => by cases hj
      condition := .nil _
      groupBy := fun e he => by
        obtain ⟨g, hg, rfl⟩ := List.mem_map.1 he
        exact plain_inner p _
      having := hhaving
      orderBy := fun o ho => by cases ho }
  · refine ⟨[], ns, ms, ?_, rfl⟩
    split
    · exact { h with
        items := plain_outputItems
        groupBy := fun e he => by
          obtain ⟨g, hg, rfl⟩ := List.mem_map.1 he
          exact plain_grouping (List.mem_append_left _ hg)
        having := hhaving }
    · exact { h with items := plain_outputItems, having := hhaving }

theorem binds_rows (hp : p.Fitting) :
    Binds p.rows (boundBy p.filters.rows ++ boundBy p.filters.groups) p.Has := by
  refine (binds_base hp).bind fun base ns hbase => ?_
  exact (binds_condition (fun t e => plain_groupColumn)
    fun t ht => hp t (List.mem_append_right _ ht)).map fun e? ms he => parts_grouped hbase.1 he

theorem binds_main (hp : p.Fitting) :
    Binds p.main (boundBy p.filters.rows ++ boundBy p.filters.groups) p.Has := by
  rw [← List.append_nil (boundBy _ ++ boundBy _)]
  refine (binds_rows hp).bind fun rows ns hrows => ?_
  refine (binds_mapM_lift fun k o => plain_orderOf).map ?_
  -- the order binds nothing
  rintro orders ms ⟨horders, rfl⟩
  obtain ⟨ks, ls, ms, hparts, rfl⟩ := hrows
  exact ⟨ks, ls, ms, { hparts with orderBy := horders }, List.append_nil _⟩

/-- Rows are counted directly only where there are no conditions on groups. -/
theorem binds_countSelect (hp : p.Fitting) :
    Binds p.countSelect (boundBy p.filters.rows ++ boundBy p.filters.groups) p.Has := by
  unfold countSelect
  split
  · rename_i hdirect
    -- there is no condition on groups, so nothing is bound for it
    have hgroups : p.filters.groups = none := by
      rw [countsDirectly, Bool.and_eq_true, Bool.and_eq_true, Option.isNone_iff_eq_none] at hdirect
      exact hdirect.1.2
    rw [hgroups, boundBy, boundBy, Filter.predicatesOf_none, List.flatMap_nil, List.append_nil]
    refine (binds_base hp).map ?_
    rintro base ns ⟨hparts, -⟩
    refine ⟨[], ns, [], { hparts with items := fun i hi => ?_ }, by rw [List.append_nil]; rfl⟩
    rw [List.mem_singleton.1 hi]
    exact plain_distinctCount
  · refine (binds_rows hp).map fun rows ns hrows => ⟨ns, [], [], ?_, by simp⟩
    have hcount : "COUNT" ∈ functionNames := by decide
    exact {
      items := fun i hi => by
        rw [List.mem_singleton.1 hi]
        exact Expr.carries_function hcount (carries_sym _ .star)
      source := .singleton (carries_source (carries_query hrows.carries) _)
      joins := fun j hj => by cases hj
      condition := .nil _
      groupBy := fun e he => by cases he
      having := .nil _
      orderBy := fun o ho => by cases ho }

theorem statement_ok {d : Dialect} {x : Binding Select} {st : Statement}
    (h : statement d x = .ok st) :
    ∃ s params, x.run [] = .ok (s, params) ∧ st = ⟨s.render d, params⟩ := by
  obtain ⟨⟨s, params⟩, hrun, h⟩ := bind_ok h
  cases h
  exact ⟨s, params, hrun, rfl⟩

theorem compile_ok {c : Compiled} (h : p.compile = .ok c) :
    statement p.dialect p.main = .ok c.main ∧
      ∀ st ∈ c.count, statement p.dialect p.countSelect = .ok st := by
  obtain ⟨main, hmain, h⟩ := bind_ok h
  split at h
  · obtain ⟨count, hcount, h⟩ := bind_ok h
    obtain ⟨st, hst, rfl⟩ := map_ok hcount
    cases h
    refine ⟨hmain, ?_⟩
    rintro st' ⟨⟩
    exact hst
  · cases h
    refine ⟨hmain, ?_⟩
    rintro st' ⟨⟩

end

end Plan

/-- What a statement binds, and how its text refers to it: its parameters are from left to right the
first, the second and so on, as many as there are values. This holds of its tokens in any case, and
of its text if the texts of the model hold no placeholders. -/
structure Statement.Numbered (st : Statement) (x : Binding Select) (d : Dialect)
    (texts : List String) (values : List Operand) : Prop where
  params : st.params = values
  tokens : ∃ s, x.run [] = .ok (s, st.params) ∧ st.sql = s.render d ∧
    positions (s.tokens d) = List.range' 1 st.params.length
  placeholders : Neutral d texts →
    placeholders d st.sql = (List.range' 1 st.params.length).map d.placeholder

theorem Plan.numbered_of_binds {p : Plan} {x : Binding Select} {vs : List Operand}
    {st : Statement} (hx : Binds x vs p.Has) (h : statement p.dialect x = .ok st) :
    st.Numbered x p.dialect p.texts vs := by
  obtain ⟨s, params, hrun, rfl⟩ := statement_ok h
  obtain ⟨rfl, hs⟩ := hx [] s params hrun
  have hcarries := hs.carries
  exact {
    params := rfl
    tokens := ⟨s, hrun, rfl, hcarries.params⟩
    placeholders := fun hn => (hcarries.reads hn).placeholders_eq }

/-- The values of the main statement, and of the one that counts, are what the predicates bind,
those of the conditions on rows from left to right and then those of the conditions on groups, and
the placeholders met from left to right are those of the first value to the last. -/
theorem compile_numbered {m : Model} {d : Dialect} {q : Query} {c : Compiled}
    (h : compile m d q = .ok c) :
    ∃ p, Plan.build m d q = .ok p ∧ Placement.of m q = .ok p.filters ∧
      c.main.Numbered p.main d p.texts (boundBy p.filters.rows ++ boundBy p.filters.groups) ∧
      ∀ st ∈ c.count, st.Numbered p.countSelect d p.texts
        (boundBy p.filters.rows ++ boundBy p.filters.groups) := by
  obtain ⟨p, hbuild, hcompile⟩ := bind_ok h
  obtain ⟨rfl, hplaced⟩ := Plan.build_ok hbuild
  have hp : p.Fitting := Placement.fits_of_placed hplaced
  obtain ⟨hmain, hcount⟩ := Plan.compile_ok hcompile
  refine ⟨p, hbuild, hplaced, Plan.numbered_of_binds (Plan.binds_main hp) hmain, fun st hst => ?_⟩
  exact Plan.numbered_of_binds (Plan.binds_countSelect hp) (hcount st hst)

/-- The best scores of some ratings, and how many there are. -/
def countedScores : Query :=
  { Placement.bestScores (some (.test (Placement.rated ["A", "B"])))
      (some (.test (Placement.scoredOver 10))) with
    pagination := some { limit := some 5, wantTotal := true } }

theorem compile_numbered_countedScores :
    ∃ c, compile Placement.players .postgres countedScores = .ok c ∧
      c.main.params = [.text "A", .text "B", .int 10] ∧
      placeholders .postgres c.main.sql = ["$1", "$2", "$3"] ∧
      ∃ st ∈ c.count, st.params = [.text "A", .text "B", .int 10] ∧
        placeholders .postgres st.sql = ["$1", "$2", "$3"] := by
  let filters : Placement :=
    ⟨some (.test (Placement.rated ["A", "B"])), some (.test (Placement.scoredOver 10))⟩
  let root : Placement.players.Member := ⟨Placement.players.tables.head (by decide), by decide⟩
  have hfilters : Placement.of Placement.players countedScores = .ok filters := by decide +kernel
  have hdraft : ((Plan.draft .postgres countedScores root filters).run' []).map
      (fun r => (r.2, Plan.texts { r.1 with joins := [] },
        (Plan.compile { r.1 with joins := [] }).toOption.map (·.count.isSome))) =
      .ok ([], ["\"players\".\"rating\"", "\"players\".\"score\"", "\"players\".\"rating\""],
        some true) := by
    decide +kernel
  obtain ⟨⟨p, required⟩, hrun, hp⟩ := map_ok hdraft
  simp only [Prod.mk.injEq] at hp
  obtain ⟨rfl, htexts, hcount⟩ := hp
  have hbuild := Plan.build_of_draft hfilters rfl hrun
  obtain ⟨c, hc, hsome⟩ := Option.map_eq_some_iff.1 hcount
  have hcompile : compile Placement.players .postgres countedScores = .ok c := by
    rw [compile, hbuild]
    cases hresult : Plan.compile { p with joins := [] } with
    | error e => rw [hresult] at hc; cases hc
    | ok c' => rw [hresult] at hc; cases hc; exact hresult
  obtain ⟨st, hst⟩ := Option.isSome_iff_exists.1 hsome
  obtain ⟨p', hbuild', hfilters', hmain, hcounts⟩ := compile_numbered hcompile
  -- the plan is the draft, so its texts and its conditions are known
  rw [hbuild, Except.ok.injEq] at hbuild'
  subst hbuild'
  rw [hfilters, Except.ok.injEq] at hfilters'
  have hneutral : Neutral .postgres (Plan.texts { p with joins := [] }) := by
    rw [htexts]
    unfold Neutral
    decide +kernel
  have hmet : ∀ {x : Binding Select} {s : Statement},
      s.Numbered x .postgres (Plan.texts { p with joins := [] })
        (boundBy filters.rows ++ boundBy filters.groups) →
      s.params = [.text "A", .text "B", .int 10] ∧
        placeholders .postgres s.sql = ["$1", "$2", "$3"] := by
    intro x s hs
    have hparams := hs.params
    have hplaceholders := hs.placeholders hneutral
    rw [hparams] at hplaceholders ⊢
    exact ⟨by decide +kernel, hplaceholders.trans (by decide +kernel)⟩
  rw [← hfilters'] at hmain hcounts
  obtain ⟨hparams, hplaceholders⟩ := hmet hmain
  exact ⟨c, hcompile, hparams, hplaceholders, st, hst, hmet (hcounts st hst)⟩

end Rollup
