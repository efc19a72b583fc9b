/-
Grand totals. Without dimensions a statement makes one record of all rows. In two passes it makes it
of the groups that the inner statement found, and where these are found by the columns that metrics
are nested by, there is none when there are no rows. The metrics that need no second pass have the
value of a single pass either way, with one exception: a count of nothing is no number but NULL when
it is the sum of no counts.
-/
import Rollup.Proofs.Compile.SinglePass

namespace Rollup

open Sql

/-! ## Statements without keys -/

namespace Sql

variable {V : Type} [LinearOrder V] {db : Database V} {bag : List (SourceRow V)}

theorem Select.returns_of_entries {s : Select} {e : Record V × List (Option V)}
    (h : s.entries db bag = [e]) (out : List (Record V)) :
    s.Returns db bag out ↔ out = Page.cut s.page [e.1] := by
  unfold Returns
  rw [h]
  constructor
  · rintro ⟨es, hes, -, rfl⟩
    rw [List.perm_singleton.1 hes]
    rfl
  · rintro rfl
    exact ⟨[e], .refl _, List.pairwise_singleton _ _, rfl⟩

/-- The groups of some rows make them up. -/
theorem flatten_partitionBy_perm {α κ : Type} [DecidableEq κ] (key : α → κ) (as : List α) :
    (partitionBy key as).flatten.Perm as := by
  refine (flatten_filters_perm key as (List.nodup_dedup _)).trans (List.Perm.of_eq ?_)
  rw [List.filter_eq_self]
  intro a ha
  simpa using ⟨a, ha, rfl⟩

end Sql

namespace Plan

section

variable {V : Type} (db : Database V)

theorem isAggregate_aggregate (a : Aggregation) (e : Expr) :
    db.isAggregate (aggregate (some a) e) = true := by
  cases a <;> rfl

theorem aggregation_of_reaggregates {s : Metric} (h : s.reaggregates = true) :
    ∃ a, s.aggregation = some a ∧ a ≠ .countDistinct := by
  unfold Metric.reaggregates at h
  split at h
  · cases h
  · cases h
  · rename_i a hne ha
    exact ⟨a, ha, hne⟩

/-- A metric that can be aggregated again is aggregated in both passes. -/
theorem isAggregate_metricExpr (p : Plan) {s : Metric} (h : s.reaggregates = true) :
    db.isAggregate (p.metricExpr s) = true := by
  obtain ⟨a, ha, -⟩ := aggregation_of_reaggregates h
  unfold metricExpr
  rw [ha]
  split
  · exact isAggregate_aggregate db a _
  · split
    · exact isAggregate_aggregate db a _
    · cases a <;> rfl

theorem isAggregate_partials (p : Plan) {s : Metric} (h : s.reaggregates = true)
    (htwo : s.twoPass = false) : (p.partials s).any (fun i => db.isAggregate i.expr) = true := by
  obtain ⟨a, ha, -⟩ := aggregation_of_reaggregates h
  unfold partials
  rw [htwo, ha]
  cases a <;> rfl

end

/-! ## Totals in two passes -/

section

variable {V : Type} [LinearOrder V] (p : Plan) (bag : List (SourceRow V))

/-- The groups of the inner statement. Without columns to group by all rows are one group. -/
def innerGroups : List (List (SourceRow V)) :=
  if p.dimensions ++ p.nestBy = [] then [bag] else partitionBy p.fineKey bag

variable {p bag}

theorem flatten_innerGroups_perm : (p.innerGroups bag).flatten.Perm bag := by
  unfold innerGroups
  split
  · rw [List.flatten_singleton]
  · exact flatten_partitionBy_perm _ _

theorem innerGroups_eq_nil_iff :
    p.innerGroups bag = [] ↔ bag = [] ∧ p.dimensions ++ p.nestBy ≠ [] := by
  unfold innerGroups
  split
  · rename_i hnone
    simp [hnone]
  · rename_i hsome
    rw [partitionBy, List.map_eq_nil_iff, List.dedup_eq_nil, List.map_eq_nil_iff]
    simp [hsome]

variable {db : Database V} {base : Select}

/-- The rows of the main statement are the groups of the inner one. -/
theorem sourceRows_innerGroups (hbase : sourceRows db bag base.source = bag)
    (hdistinct : base.distinct = false) (hhaving : base.having = none)
    (hagg : (p.innerSelect base).items.any (fun i => db.isAggregate i.expr) = true) :
    sourceRows db bag (some ⟨.query (p.innerSelect base), some p.innerAlias⟩) =
      (p.innerGroups bag).map (innerRow db p base) := by
  unfold innerGroups
  split
  · rename_i hnone
    have hkeys : (p.innerSelect base).groupBy = [] := by
      rw [innerSelect, hnone]
      rfl
    have hfine : p.fineKeys = [] := by
      rw [fineKeys, hnone]
      rfl
    have hentries := Select.entries_total db bag hkeys hagg hhaving hdistinct
    rw [sourceRows, Source.rows, Relation.rows, hentries, List.map_singleton, List.map_singleton,
      innerRow, hfine]
    exact congrArg (fun rows => [((p.innerSelect base).record (db.value [] rows)).row
      (some p.innerAlias)]) hbase
  · rename_i hsome
    exact sourceRows_innerSelect hbase hdistinct hhaving hsome

end

/-! ## Totals of a plan -/

section

variable {V : Type} [LinearOrder V] {db : Database V} {bag : List (SourceRow V)} {p : Plan}
  {main : Select} {params : List Operand}

variable (db bag) in
theorem main_run_free (hmain : p.main.run [] = .ok (main, params))
    (hfree : p.filters.groups = none) :
    ∃ base orderBy, sourceRows db bag base.source = bag ∧ base.distinct = false ∧
      base.having = none ∧
      main = { p.grouped base with having := none, orderBy, page := p.page? } := by
  obtain ⟨rows, orderBy, _, hrows, -, rfl⟩ := main_run hmain
  obtain ⟨base, having, _, hbase, hhaving, rfl⟩ := rows_run hrows
  obtain ⟨condition, rfl⟩ := base_run hbase
  rw [hhaving hfree]
  exact ⟨_, orderBy, sourceRows_sourceOf db bag _ _, rfl, rfl, rfl⟩

theorem items_any_of_output {f : Item → Bool} {o : Output} (ho : o ∈ p.outputs)
    (h : f (labelled (p.outputExpr o) o.column.label) = true) : p.outputItems.any f = true :=
  List.any_eq_true.2 ⟨_, List.mem_map_of_mem ho, h⟩

variable (db bag) {o : Output} {s : Metric} (ho : o ∈ p.outputs) (hs : o.content = .metric s)
  (hpartial : s.reaggregates = true) (hdims : p.dimensions = []) (hfree : p.filters.groups = none)
  (hmain : p.main.run [] = .ok (main, params))

include ho hs hpartial hdims hfree hmain

/-- A single pass makes one record, of all rows. -/
theorem entries_total_single (hnested : p.nested = false) (hagg : p.query.isAggregated = true) :
    main.items = p.outputItems ∧
      ∃ values, main.entries db bag = [(main.record (db.value [] bag), values)] := by
  obtain ⟨base, orderBy, hbase, hdistinct, -, rfl⟩ := main_run_free db bag hmain hfree
  have hgrouped : p.grouped base =
      { base with items := p.outputItems, groupBy := p.dimensions.map fun g => .raw g.sql } := by
    rw [grouped, hnested, hagg]
    rfl
  have hvalue : db.isAggregate (p.outputExpr o) = true := by
    rw [outputExpr, hs]
    exact isAggregate_metricExpr db p hpartial
  rw [hgrouped, hdims]
  refine ⟨rfl, ?_⟩
  have hentries := Select.entries_total db bag
    (s := { base with items := p.outputItems, groupBy := [], having := none, orderBy,
                      page := p.page? })
    rfl (items_any_of_output ho hvalue) rfl hdistinct
  rw [hbase] at hentries
  exact ⟨_, hentries⟩

/-- Two passes make one record, of the groups of the inner statement. -/
theorem entries_total_nested (htwo : s.twoPass = false) (hnested : p.nested = true) :
    main.items = p.outputItems ∧
      ∃ base values, main.entries db bag =
        [(main.record (db.value p.outerKeys ((p.innerGroups bag).map (innerRow db p base))),
          values)] := by
  obtain ⟨base, orderBy, hbase, hdistinct, hhaving, rfl⟩ := main_run_free db bag hmain hfree
  have houter : p.outerKeys = [] := by
    rw [outerKeys, hdims]
    rfl
  have hgrouped : p.grouped base =
      { items := p.outputItems
        source := some ⟨.query (p.innerSelect base), some p.innerAlias⟩
        groupBy := p.outerKeys } := by
    rw [grouped, hnested]
    rfl
  have hvalue : db.isAggregate (p.outputExpr o) = true := by
    rw [outputExpr, hs]
    exact isAggregate_metricExpr db p hpartial
  have hinner : (p.innerSelect base).items.any (fun i => db.isAggregate i.expr) = true := by
    have hmem : s ∈ p.metrics := List.mem_append_left _ (mem_projectedMetrics.2 ⟨o, ho, hs⟩)
    obtain ⟨i, hi, hagg⟩ := List.any_eq_true.1 (isAggregate_partials db p hpartial htwo)
    exact List.any_eq_true.2
      ⟨i, List.mem_append_right _ (List.mem_flatMap.2 ⟨s, hmem, hi⟩), hagg⟩
  rw [hgrouped, houter]
  refine ⟨rfl, base, ?_⟩
  have hentries := Select.entries_total db bag
    (s := { items := p.outputItems
            source := some ⟨.query (p.innerSelect base), some p.innerAlias⟩
            orderBy, page := p.page? })
    rfl (items_any_of_output ho hvalue) rfl rfl
  rw [sourceRows_innerGroups hbase hdistinct hhaving hinner] at hentries
  exact ⟨_, hentries⟩

end

section

variable {m : Model} {d : Dialect} {q : Query} {root : m.Member} {p : Plan}

theorem Drawn.dimensions_eq_nil (h : Drawn d q root p) (hq : q.dimensions = []) :
    p.dimensions = [] := by
  rw [List.eq_nil_iff_forall_not_mem]
  intro g hg
  obtain ⟨o, ho, hcontent⟩ := mem_groupings.1 hg
  obtain ⟨x, hx, c, sql, rfl⟩ := h.exists_projection ho
  have hmetric : x.role = .metric := by
    have hnone := List.filter_eq_nil_iff.1 hq x hx
    simpa [Role.isDimension] using hnone
  rw [Projection.output, hmetric] at hcontent
  cases hcontent

theorem mem_metrics_of_content {o : Output} (ho : o ∈ p.outputs) {s : Metric}
    (hs : o.content = .metric s) : s ∈ p.metrics :=
  List.mem_append_left _ (mem_projectedMetrics.2 ⟨o, ho, hs⟩)

theorem isTwoPass_of_content {o : Output} {s : Metric} (hs : o.content = .metric s) :
    o.isTwoPass = s.twoPass := by
  rw [Output.isTwoPass, hs]

/-- A metric of a single pass is left when those of two passes are left out. -/
theorem Drawn.isAggregated_singlePass (h : Drawn d q root p) {o : Output} (ho : o ∈ p.outputs)
    {s : Metric} (hs : o.content = .metric s) (htwo : s.twoPass = false) :
    p.singlePass.isAggregated = true := by
  obtain ⟨x, hx, c, sql, rfl⟩ := h.exists_projection ho
  have hmetric : x.role = .metric := by
    by_contra hne
    rw [Projection.content_output_dimension hne] at hs
    cases hs
  have hkeep : p.keeps x = true := by
    rw [h.keeps_eq ho rfl, isTwoPass_of_content hs, htwo]
    rfl
  rw [Query.isAggregated, singlePass, h.query]
  exact List.any_eq_true.2 ⟨x, List.mem_filter.2 ⟨hx, hkeep⟩, by rw [hmetric]; rfl⟩

/-- What two passes and a single one make of all rows without dimensions. -/
theorem totals_of_build {r : Request} {p' : Plan} {main main' : Select}
    {params params' : List Operand} (hq : Query.build m r = .ok q) (hp : build m d q = .ok p)
    (hp' : build m d p.singlePass = .ok p') (hdims : q.dimensions = []) (hnested : p.nested = true)
    (hfree : p.filters.groups = none) (hmain : p.main.run [] = .ok (main, params))
    (hmain' : p'.main.run [] = .ok (main', params')) {o : Output} (ho : o ∈ p.outputs) {s : Metric}
    (hs : o.content = .metric s) (hplain : s.twoPass = false) {V : Type} [LinearOrder V]
    (db : Database V) (bag : List (SourceRow V)) :
    ∃ base total values total' values', main.entries db bag = [(total, values)] ∧
      main'.entries db bag = [(total', values')] ∧
      total.get o.column.label = db.value p.outerKeys
        ((p.innerGroups bag).map (innerRow db p base)) (p.metricExpr s) ∧
      total'.get o.column.label = db.value [] bag (aggregate s.aggregation (.raw s.sql)) := by
  obtain ⟨root, -, hdrawn⟩ := build_drawn hp
  obtain ⟨root', -, hdrawn'⟩ := build_drawn hp'
  have hone := hdrawn.isAggregated_singlePass ho hs hplain
  obtain ⟨hquery', hnested', hfree', houtputs'⟩ := singlePass_of_build hq hp hp' hone hfree
  have hpartial := (hdrawn.nests hnested s (mem_metrics_of_content ho hs)).resolve_left
    (by simp [hplain])
  have ho' : o ∈ p'.outputs := by
    rw [houtputs', List.mem_filter, isTwoPass_of_content hs, hplain]
    exact ⟨ho, rfl⟩
  obtain ⟨hitems, base, values, hentries⟩ := entries_total_nested db bag ho hs
    hpartial (hdrawn.dimensions_eq_nil hdims) hfree hmain hplain hnested
  obtain ⟨hitems', values', hentries'⟩ := entries_total_single db bag ho' hs hpartial
    (hdrawn'.dimensions_eq_nil (hdrawn.dimensions_singlePass.trans hdims)) hfree' hmain'
    hnested' (by rw [hquery', hone])
  obtain ⟨memo, hshows⟩ := hdrawn.shows
  obtain ⟨memo', hshows'⟩ := hdrawn'.shows
  have hexpr : p.outputExpr o = p.metricExpr s := by
    rw [outputExpr, hs]
  have hexpr' : p'.outputExpr o = aggregate s.aggregation (.raw s.sql) := by
    rw [outputExpr, hs]
    show p'.metricExpr s = _
    rw [metricExpr, hnested']
    rfl
  refine ⟨base, _, values, _, values', hentries, hentries', ?_, ?_⟩
  · rw [get_record_output hitems hshows.labels.1 ho, hexpr]
  · rw [get_record_output hitems' hshows'.labels.1 ho', hexpr']

end

/-- A sum of no counts is NULL. -/
theorem value_metricExpr_count {V : Type} [LinearOrder V] (db : Database V) {p : Plan} {s : Metric}
    (hnested : p.nested = true) (htwo : s.twoPass = false) (hcount : s.aggregation = some .count)
    (keys : List Expr) : db.value keys [] (p.metricExpr s) = none := by
  rw [metricExpr, hnested, htwo, hcount]
  rfl

end Plan

/-- Without dimensions and without conditions on groups, the nested main statement makes one record
of whatever rows there are, and so does the single pass that is left without the metrics of two
passes. There a metric is aggregated over the rows, and it has the same value in the nested
statement, unless it is a count, there are no rows, and the inner statement groups by columns that
metrics are nested by. -/
theorem nested_total_iff {m : Model} {d : Dialect} {r : Request} {q : Query} {p p' : Plan}
    {main main' : Select} {params params' : List Operand} (hq : Query.build m r = .ok q)
    (hp : Plan.build m d q = .ok p) (hp' : Plan.build m d p.singlePass = .ok p')
    (hdims : q.dimensions = []) (htwo : ∃ o ∈ p.outputs, o.isTwoPass = true)
    (hfree : p.filters.groups = none) (hlabels : ((p.innerSelect {}).items.map (·.label)).Nodup)
    (hmain : p.main.run [] = .ok (main, params)) (hmain' : p'.main.run [] = .ok (main', params'))
    {o : Output} (ho : o ∈ p.outputs) {s : Metric} (hs : o.content = .metric s)
    (hplain : s.twoPass = false) {V : Type} [LinearOrder V] (db : Database V)
    (bag : List (SourceRow V)) :
    let direct := db.value [] bag (Plan.aggregate s.aggregation (.raw s.sql))
    ∃ total total', main.records db bag = [total] ∧
      (∀ out, main.Returns db bag out ↔ out = Page.cut main.page [total]) ∧
      main'.records db bag = [total'] ∧ total'.get o.column.label = direct ∧
      (total.get o.column.label = direct ↔
        (s.aggregation = some .count → bag = [] → p.nestBy = [])) := by
  intro direct
  obtain ⟨root, -, hdrawn⟩ := Plan.build_drawn hp
  have hnested := Plan.nested_of_isTwoPass htwo
  have hmem := Plan.mem_metrics_of_content ho hs
  have hpartial := (hdrawn.nests hnested s hmem).resolve_left (by simp [hplain])
  have hgroups : p.innerGroups bag = [] ↔ bag = [] ∧ p.nestBy ≠ [] := by
    rw [Plan.innerGroups_eq_nil_iff, hdrawn.dimensions_eq_nil hdims, List.nil_append]
  obtain ⟨base, total, values, total', values', hentries, hentries', htotal, htotal'⟩ :=
    Plan.totals_of_build hq hp hp' hdims hnested hfree hmain hmain' ho hs hplain db bag
  refine ⟨total, total', congrArg (List.map Prod.fst) hentries, Select.returns_of_entries hentries,
    congrArg (List.map Prod.fst) hentries', htotal', ?_⟩
  rw [htotal]
  constructor
  · intro hvalue hcount hbag
    by_contra hnest
    rw [hgroups.2 ⟨hbag, hnest⟩, List.map_nil,
      Plan.value_metricExpr_count db hnested hplain hcount] at hvalue
    have hdirect : direct = db.count (bag.map (· (.raw s.sql))) := by
      show db.value [] bag (Plan.aggregate s.aggregation _) = _
      rw [hcount]
      rfl
    rw [hdirect] at hvalue
    cases hvalue
  · intro hcond
    refine Plan.value_metricExpr_groups db hlabels hnested hmem hplain hpartial
      Plan.flatten_innerGroups_perm (fun hcount hnone => ?_) []
    obtain ⟨hbag, hnest⟩ := hgroups.1 hnone
    exact hnest (hcond hcount hbag)

/-! ## An example -/

/-- Games, how many were played, and the most points made in a season. -/
def seasonLog : Model where
  tables := [
    { name := "games"
      source := .physical none "games"
      columns := [
        { name := "season", formula := "\x7b\x7b$season\x7d\x7d", kind := .dimension },
        { name := "played", formula := "\x7b\x7b$id\x7d\x7d", kind := .metric (some .count) [] },
        { name := "record", formula := "SUM(\x7b\x7b$points\x7d\x7d)"
          kind := .metric (some .max) [{ column := "season" }] }] }]

/-- Some metrics of all games. -/
def allGames (metrics : List String) : Query where
  table := "games"
  arguments := .empty
  projections := metrics.map fun name => ⟨{ column := name }, .metric, name⟩
  whereFilter := none
  havingFilter := none
  sorting := []
  pagination := none
  bypassCache := false

/-- The request for those metrics. -/
def allGamesRequest (metrics : List String) : Request where
  table := "games"
  select := metrics.map fun name => ⟨{ column := name }, none⟩

/-- How many games were played, as the statements read it. -/
def gamesPlayed : Metric where
  path := { column := "played" }
  sql := "\"games\".\"id\""
  aggregation := some .count
  label := "played"

/-- What the plan of the games played beside the record shows. -/
def Plan.showsPlayed (p : Plan) : Bool :=
  (p.outputs.any fun o => o.column.label == "played" && o.content == .metric gamesPlayed) &&
    (p.outputs.any Output.isTwoPass && p.filters.groups.isNone && !p.nestBy.isEmpty) &&
    (decide ((p.innerSelect {}).items.map (·.label)).Nodup &&
      p.singlePass = allGames ["played"] && (p.main.run []).toOption.isSome)

theorem build_allGames (metrics : List String) (P : Plan → Bool)
    (hfilters : Placement.of seasonLog (allGames metrics) = .ok {})
    (h : ((Plan.draft .sqlite (allGames metrics)
      (⟨seasonLog.tables.head (by decide), by decide⟩ : seasonLog.Member) {}).run' []).map
        (fun r => (r.2, P { r.1 with joins := [] })) = .ok ([], true)) :
    ∃ p, Plan.build seasonLog .sqlite (allGames metrics) = .ok p ∧ P p = true :=
  Plan.build_shown P hfilters rfl h

/-- The plans of both queries of the games played. -/
structure PlaysBoth (p p' : Plan) (main main' : Select) : Prop where
  build : Plan.build seasonLog .sqlite (allGames ["played", "record"]) = .ok p
  single : p.singlePass = allGames ["played"]
  build' : Plan.build seasonLog .sqlite (allGames ["played"]) = .ok p'
  main : ∃ params, p.main.run [] = .ok (main, params)
  main' : ∃ params, p'.main.run [] = .ok (main', params)
  twoPass : ∃ o ∈ p.outputs, o.isTwoPass = true
  free : p.filters.groups = none
  nests : p.nestBy ≠ []
  labels : ((p.innerSelect {}).items.map (·.label)).Nodup
  played : ∃ o ∈ p.outputs, o.column.label = "played" ∧ o.content = .metric gamesPlayed

theorem playsBoth : ∃ p p' main main', PlaysBoth p p' main main' := by
  obtain ⟨p, hp, hshown⟩ := build_allGames ["played", "record"] Plan.showsPlayed
    (by decide +kernel) (by decide +kernel)
  obtain ⟨p', hp', hshown'⟩ := build_allGames ["played"]
    (fun p => (p.main.run []).toOption.isSome) (by decide +kernel) (by decide +kernel)
  simp only [Plan.showsPlayed, Bool.and_eq_true, decide_eq_true_eq, List.any_eq_true, beq_iff_eq,
    Option.isNone_iff_eq_none, Bool.not_eq_true', List.isEmpty_eq_false_iff] at hshown
  obtain ⟨⟨hplayed, ⟨htwo, hfree⟩, hnests⟩, ⟨hlabels, hsingle⟩, hmain⟩ := hshown
  obtain ⟨main, params, hmain⟩ := run_main_of_isSome hmain
  obtain ⟨main', params', hmain'⟩ := run_main_of_isSome hshown'
  exact ⟨p, p', main, main', hp, hsingle, hp', ⟨params, hmain⟩, ⟨params', hmain'⟩, htwo, hfree,
    hnests, hlabels, hplayed⟩

/-- Where there are games, they are counted beside the record as they are without it. -/
theorem nested_total_iff_played : ∃ p p' main main', PlaysBoth p p' main main' ∧
    ∀ bag : List (SourceRow ℚ), bag ≠ [] → ∃ total, main.records pointSums bag = [total] ∧
      total.get "played" = pointSums.count (bag.map (· (.raw "\"games\".\"id\""))) := by
  obtain ⟨p, p', main, main', h⟩ := playsBoth
  refine ⟨p, p', main, main', h, fun bag hbag => ?_⟩
  obtain ⟨params, hmain⟩ := h.main
  obtain ⟨params', hmain'⟩ := h.main'
  obtain ⟨o, ho, hlabel, hcontent⟩ := h.played
  have hq : Query.build seasonLog (allGamesRequest ["played", "record"]) =
      .ok (allGames ["played", "record"]) := by decide +kernel
  obtain ⟨total, -, htotal, -, -, -, hvalue⟩ := nested_total_iff hq h.build
    (h.single ▸ h.build') (by decide) h.twoPass h.free h.labels hmain hmain' ho hcontent
    (by decide +kernel) pointSums bag
  rw [hlabel] at hvalue
  exact ⟨total, htotal, hvalue.2 fun _ hempty => absurd hempty hbag⟩

/-- Where there are none, the count beside the record is NULL, and without it zero. -/
theorem nested_total_played_nothing : Model.build seasonLog.tables = .ok seasonLog ∧
    ∃ p p' main main' total total', PlaysBoth p p' main main' ∧
      main.records pointSums [] = [total] ∧ total.get "played" = none ∧
      main'.records pointSums [] = [total'] ∧ total'.get "played" = some 0 := by
  refine ⟨by decide +kernel, ?_⟩
  obtain ⟨p, p', main, main', h⟩ := playsBoth
  obtain ⟨params, hmain⟩ := h.main
  obtain ⟨params', hmain'⟩ := h.main'
  obtain ⟨o, ho, hlabel, hcontent⟩ := h.played
  have hq : Query.build seasonLog (allGamesRequest ["played", "record"]) =
      .ok (allGames ["played", "record"]) := by decide +kernel
  have hnested := Plan.nested_of_isTwoPass h.twoPass
  have hplain : gamesPlayed.twoPass = false := by decide +kernel
  obtain ⟨base, total, values, total', values', hentries, hentries', htotal, htotal'⟩ :=
    Plan.totals_of_build hq h.build (h.single ▸ h.build') (by decide) hnested h.free hmain hmain'
      ho hcontent hplain pointSums []
  have hgroups : p.innerGroups ([] : List (SourceRow ℚ)) = [] :=
    Plan.innerGroups_eq_nil_iff.2 ⟨rfl, List.append_ne_nil_of_right_ne_nil _ h.nests⟩
  rw [hlabel, hgroups, List.map_nil,
    Plan.value_metricExpr_count pointSums hnested hplain rfl] at htotal
  rw [hlabel] at htotal'
  exact ⟨p, p', main, main', total, total', h, congrArg (List.map Prod.fst) hentries, htotal,
    congrArg (List.map Prod.fst) hentries', htotal'⟩

end Rollup
