/-
The number of rows that a page is cut out of. Counted through a subquery it is the number of records
of the main statement. Counted directly, as distinct values of the dimensions, it leaves out the
groups that COUNT(DISTINCT ..) does not count: those with a NULL.
-/
import Mathlib.Data.Finset.Card
import Mathlib.Data.Finset.Dedup
import Rollup.Proofs.Compile.Outputs
import Rollup.Proofs.Compile.Placeholders
import Rollup.Proofs.Compile.Shape

namespace Rollup

open Sql

/-- Of the values of some things, those of the things that pass a test on values are as many as all
only if everything passes. -/
theorem length_dedup_filter_eq_iff {α β : Type} [DecidableEq β] (f : α → β) (p : β → Bool)
    (as : List α) :
    ((as.filter fun a => p (f a)).map f).dedup.length = (as.map f).dedup.length ↔
      ∀ a ∈ as, p (f a) = true := by
  rw [← List.card_toFinset, ← List.card_toFinset]
  constructor
  · intro h a ha
    have hsub : ((as.filter fun a => p (f a)).map f).toFinset ⊆ (as.map f).toFinset := by
      intro b hb
      simp only [List.mem_toFinset, List.mem_map, List.mem_filter] at hb ⊢
      obtain ⟨a, ⟨ha, -⟩, rfl⟩ := hb
      exact ⟨a, ha, rfl⟩
    have hmem : f a ∈ ((as.filter fun a => p (f a)).map f).toFinset := by
      rw [Finset.eq_of_subset_of_card_le hsub h.ge]
      exact List.mem_toFinset.2 (List.mem_map_of_mem ha)
    simp only [List.mem_toFinset, List.mem_map, List.mem_filter] at hmem
    obtain ⟨b, ⟨-, hb⟩, hfb⟩ := hmem
    rwa [hfb] at hb
  · intro h
    rw [List.filter_eq_self.2 h]

/-- Functions that tell the same things apart have as many values. -/
theorem length_dedup_map_congr {α β γ : Type} [DecidableEq β] [DecidableEq γ] {f : α → β}
    {g : α → γ} (h : ∀ a b, f a = f b ↔ g a = g b) (as : List α) :
    (as.map f).dedup.length = (as.map g).dedup.length := by
  induction as with
  | nil => rfl
  | cons a as ih =>
    have hmem : f a ∈ as.map f ↔ g a ∈ as.map g := by
      simp only [List.mem_map, h]
    rw [List.map_cons, List.map_cons, List.dedup_cons, List.dedup_cons]
    by_cases ha : f a ∈ as.map f
    · rw [if_pos ha, if_pos (hmem.1 ha), ih]
    · rw [if_neg ha, if_neg (mt hmem.2 ha), List.length_cons, List.length_cons, ih]

namespace Plan

theorem isAggregate_distinctCount {V : Type} (db : Database V) (p : Plan) :
    db.isAggregate p.distinctCount = true := by
  unfold distinctCount
  dsimp only
  split <;> rfl

/-! ## The records of the main statement -/

section

variable {V : Type} [LinearOrder V] (db : Database V) (bag : List (SourceRow V)) {p : Plan}
  {base : Select}

/-- Whether the direct count counts a group with some values of the dimensions: all are there, or
the dialect counts their tuple. -/
def countsKey (p : Plan) (k : List (Option V)) : Bool :=
  if p.dimensions.length != 1 && p.dialect.tupleCount == .tuple then db.countsTuple k
  else k.all Option.isSome

theorem records_ordered (s : Select) (orderBy : List Order) (page : Option Page) :
    Select.records db bag { s with orderBy, page } = s.records db bag := by
  rw [Select.records_eq, Select.records_eq]
  rfl

/-- One pass with metrics makes a record of every group. -/
theorem length_records_aggregated (hbase : sourceRows db bag base.source = bag)
    (hdistinct : base.distinct = false) (hdims : p.dimensions ≠ []) :
    (Select.records db bag { base with
      items := p.outputItems, groupBy := p.dimensions.map fun g => .raw g.sql
      having := none }).length = (bag.map p.groupKey).dedup.length := by
  have hkeys : (p.dimensions.map fun g => Expr.raw g.sql) ≠ [] := by simpa using hdims
  have hentries := Select.entries_grouped db bag (s := { base with
    items := p.outputItems, groupBy := p.dimensions.map fun g => .raw g.sql
    having := none }) hkeys rfl hdistinct
  rw [Select.records, hentries, List.length_map, List.length_map, partitionBy, List.length_map,
    hbase]
  simp only [List.map_map]
  rfl

/-- DISTINCT makes a record of every group of values of the dimensions. -/
theorem length_records_distinct (hbase : sourceRows db bag base.source = bag)
    (hgroups : base.groupBy = []) (hnested : p.nested = false)
    (houtputs : ∀ o ∈ p.outputs, ∃ g, o.content = .dimension g)
    (hplain : ∀ g ∈ p.dimensions, db.aggregates g.sql = false) :
    (Select.records db bag { base with
      items := p.outputItems, distinct := true, having := none }).length =
      (bag.map p.groupKey).dedup.length := by
  have hitems : ∀ o ∈ p.outputs, ∃ g ∈ p.dimensions, p.outputExpr o = .raw g.sql := by
    intro o ho
    obtain ⟨g, hg⟩ := houtputs o ho
    refine ⟨g, mem_groupings.2 ⟨o, ho, hg⟩, ?_⟩
    simp only [outputExpr, hg, dimensionExpr, hnested, Bool.false_eq_true, if_false]
  have hplainItems : (p.outputItems.any fun i => db.isAggregate i.expr) = false := by
    rw [outputItems, List.any_map, List.any_eq_false]
    intro o ho
    obtain ⟨g, hg, ho⟩ := hitems o ho
    simp only [Function.comp, labelled, ho, Database.isAggregate, hplain g hg]
    decide
  rw [Select.records_eq]
  simp only [hbase, hgroups, Select.units, Select.isGrouped, hplainItems, List.isEmpty_nil,
    Bool.not_true, Bool.or_false, Bool.false_eq_true, if_false, if_true]
  refine length_dedup_map_congr (fun u u' => ?_) bag
  -- a record and a key tell the same of a row: the values of the dimensions
  simp only [Select.record, outputItems, groupKey, List.map_map, List.map_inj_left, labelled,
    Function.comp, Prod.mk.injEq, true_and]
  constructor
  · intro h g hg
    obtain ⟨o, ho, hcontent⟩ := mem_groupings.1 hg
    have := h o ho
    simpa only [outputExpr, hcontent, dimensionExpr, hnested, Bool.false_eq_true, if_false]
      using this
  · intro h o ho
    obtain ⟨g, hg, ho⟩ := hitems o ho
    rw [ho]
    exact h g hg

/-- An aggregate of all rows makes a single record. -/
theorem records_aggregate (base : Select) (hgroups : base.groupBy = [])
    (hdistinct : base.distinct = false) (hhaving : base.having = none) {e : Expr}
    (he : db.isAggregate e = true) (label : String) :
    Select.records db bag { base with items := [labelled e label] } =
      [[(some label, db.value [] (sourceRows db bag base.source) e)]] := by
  have hagg : [labelled e label].any (fun i => db.isAggregate i.expr) = true := by
    simp [labelled, he]
  have hentries := Select.entries_total db bag (s := { base with items := [labelled e label] })
    hgroups hagg hhaving hdistinct
  rw [Select.records, hentries]
  rfl

/-- The direct count is that of the groups it counts. -/
theorem value_distinctCount : db.value [] bag p.distinctCount =
    some (db.number ((bag.filter fun r => p.countsKey db (p.groupKey r)).map
      p.groupKey).dedup.length) := by
  unfold distinctCount countsKey
  dsimp only
  rw [List.length_map]
  split
  · refine congrArg (fun n : Nat => some (db.number n)) ?_
    have hcounts : ∀ r : SourceRow V, [Expr.tuple (p.dimensions.map fun g => .raw g.sql)].all
        (db.countsArgument r) = db.countsTuple (p.groupKey r) := by
      intro r
      simp [Database.countsArgument, groupKey, Function.comp_def]
    simp only [Database.countDistinct, hcounts]
    refine length_dedup_map_congr (fun u u' => ?_) _
    simp [Database.distinctValues, groupKey, Function.comp_def]
  · refine congrArg (fun n : Nat => some (db.number n)) ?_
    have hcounts : ∀ r : SourceRow V, (p.dimensions.map fun g => Expr.raw g.sql).all
        (db.countsArgument r) = (p.groupKey r).all Option.isSome := by
      intro r
      simp [Database.countsArgument, groupKey, Function.comp_def]
    simp only [Database.countDistinct, hcounts]
    refine length_dedup_map_congr (fun u u' => ?_) _
    simp [Database.distinctValues, groupKey, Function.comp_def]

end

/-! ## The count -/

/-- The only record of a count. -/
def totalRecord {V : Type} (db : Database V) (n : Nat) : List (Record V) :=
  [[(some "total", some (db.number n))]]

theorem totalRecord_inj {V : Type} {db : Database V} {n n' : Nat} :
    totalRecord db n = totalRecord db n' ↔ n = n' := by
  have hnumber : Function.Injective db.number :=
    Function.LeftInverse.injective db.amount_number
  simp [totalRecord, hnumber.eq_iff]

section

variable {V : Type} [LinearOrder V] (db : Database V) (bag : List (SourceRow V)) {m : Model}
  {d : Dialect} {q : Query} {root : m.Member} {p : Plan} {main count : Select}
  {vs params params' : List Operand}

theorem length_records_main (hp : Drawn d q root p) (hdims : p.dimensions ≠ [])
    (hdirect : p.countsDirectly = true) (hmain : p.main.run vs = .ok (main, params))
    (hplain : ∀ g ∈ p.dimensions, db.aggregates g.sql = false) :
    (main.records db bag).length = (bag.map p.groupKey).dedup.length := by
  have hdirect' : p.nested = false ∧ p.filters.groups = none := by
    simp only [countsDirectly, Bool.and_eq_true, Bool.not_eq_true', Option.isNone_iff_eq_none]
      at hdirect
    exact hdirect.1
  obtain ⟨hnested, hgroups⟩ := hdirect'
  obtain ⟨rows, orderBy, _, hrows, -, rfl⟩ := main_run hmain
  obtain ⟨base, having, _, hbase, hhaving, rfl⟩ := rows_run hrows
  obtain ⟨condition, rfl⟩ := base_run hbase
  rw [hhaving hgroups, records_ordered]
  have hsource := sourceRows_sourceOf db bag p.root p.rootAlias
  simp only [grouped, hnested, Bool.false_eq_true, if_false]
  split
  · exact length_records_aggregated db bag hsource rfl hdims
  · rename_i hagg
    rw [hp.query] at hagg
    exact length_records_distinct db bag hsource rfl hnested
      (hp.content_of_plain (Bool.eq_false_iff.2 hagg)) hplain

theorem records_countSelect_direct (hdirect : p.countsDirectly = true)
    (hcount : p.countSelect.run vs = .ok (count, params)) :
    count.records db bag = totalRecord db
      ((bag.filter fun r => p.countsKey db (p.groupKey r)).map p.groupKey).dedup.length := by
  unfold countSelect at hcount
  rw [if_pos hdirect] at hcount
  obtain ⟨base, _, hbase, hcount⟩ := run_bind_ok hcount
  cases hcount
  obtain ⟨condition, rfl⟩ := base_run hbase
  rw [records_aggregate db bag _ rfl rfl rfl (isAggregate_distinctCount db p), sourceRows_sourceOf,
    value_distinctCount]
  rfl

theorem records_countSelect_subquery (hdirect : p.countsDirectly = false)
    (hmain : p.main.run vs = .ok (main, params))
    (hcount : p.countSelect.run vs = .ok (count, params')) :
    count.records db bag = totalRecord db (main.records db bag).length := by
  unfold countSelect at hcount
  rw [if_neg (Bool.eq_false_iff.1 hdirect)] at hcount
  obtain ⟨rows, _, hrows, hcount⟩ := run_bind_ok hcount
  cases hcount
  obtain ⟨rows', orderBy, _, hrows', -, rfl⟩ := main_run hmain
  rw [hrows, Except.ok.injEq, Prod.mk.injEq] at hrows'
  obtain ⟨rfl, -⟩ := hrows'
  have hlength : (sourceRows db bag (some ⟨.query rows, some "pagination_subquery"⟩)).length =
      (rows.records db bag).length := by
    simp only [sourceRows, Source.rows, Relation.rows, Select.records, List.length_map]
  rw [records_ordered, ← hlength, totalRecord]
  exact records_aggregate db bag { source := some ⟨.query rows, some "pagination_subquery"⟩ }
    rfl rfl rfl rfl "total"

/-- The count is the number of records of the main statement if it goes through a subquery, or if
every row belongs to a group that the direct count counts, and only then. -/
theorem records_countSelect_iff (hp : Drawn d q root p) (hdims : p.dimensions ≠ [])
    (hmain : p.main.run vs = .ok (main, params))
    (hcount : p.countSelect.run vs = .ok (count, params'))
    (hplain : ∀ g ∈ p.dimensions, db.aggregates g.sql = false) :
    count.records db bag = totalRecord db (main.records db bag).length ↔
      (p.countsDirectly = true → ∀ r ∈ bag, p.countsKey db (p.groupKey r) = true) := by
  cases hdirect : p.countsDirectly with
  | false =>
    have := records_countSelect_subquery db bag hdirect hmain hcount
    simp [this]
  | true =>
    rw [records_countSelect_direct db bag hdirect hcount, totalRecord_inj,
      length_records_main db bag hp hdims hdirect hmain hplain,
      length_dedup_filter_eq_iff p.groupKey (p.countsKey db) bag]
    simp

theorem compile_count {c : Compiled} (h : p.compile = .ok c) (hwants : p.wantsCount = true) :
    ∃ st, c.count = some st ∧ statement p.dialect p.countSelect = .ok st := by
  obtain ⟨main, -, h⟩ := bind_ok h
  rw [if_pos hwants] at h
  obtain ⟨count, hcount, h⟩ := bind_ok h
  obtain ⟨st, hst, rfl⟩ := map_ok hcount
  cases h
  exact ⟨st, rfl, hst⟩

end

end Plan

/-- The statements that a compiled query with a count is written from. -/
structure Compiled.Writes (c : Compiled) (p : Plan) (main count : Select) : Prop where
  main : ∃ params, p.main.run [] = .ok (main, params) ∧ c.main = ⟨main.render p.dialect, params⟩
  count : ∃ params, p.countSelect.run [] = .ok (count, params) ∧
    c.count = some ⟨count.render p.dialect, params⟩

theorem Plan.writes_of_compile {p : Plan} {c : Compiled} (h : p.compile = .ok c)
    (hwants : p.wantsCount = true) : ∃ main count, c.Writes p main count := by
  obtain ⟨main, params, hmain, hc⟩ := statement_ok (compile_ok h).1
  obtain ⟨st, hst, hcount⟩ := compile_count h hwants
  obtain ⟨count, params', hrun, rfl⟩ := statement_ok hcount
  exact ⟨main, count, ⟨params, hmain, hc⟩, params', hrun, hst⟩

/-- When a total is wanted of a query with dimensions, the count statement returns the number of
records of the main statement before its page is cut out, if the records are counted in a subquery
or every row belongs to a group that is counted directly. Otherwise it returns another number. -/
theorem compile_total_iff {m : Model} {d : Dialect} {q : Query} {c : Compiled}
    (h : compile m d q = .ok c) (hwants : q.pagination.any (·.wantTotal) = true)
    (hdims : q.dimensions ≠ []) :
    ∃ p main count, Plan.build m d q = .ok p ∧ c.Writes p main count ∧
      ∀ {V : Type} [LinearOrder V] (db : Database V) (bag : List (SourceRow V)),
        (∀ g ∈ p.dimensions, db.aggregates g.sql = false) →
        (count.records db bag = Plan.totalRecord db (main.records db bag).length ↔
          (p.countsDirectly = true → ∀ r ∈ bag, p.countsKey db (p.groupKey r) = true)) := by
  obtain ⟨p, hbuild, hcompile⟩ := bind_ok h
  obtain ⟨root, -, hp⟩ := Plan.build_drawn hbuild
  have hgrouped := hp.dimensions_ne_nil hdims
  have hcounts : p.wantsCount = true := by
    rw [Plan.wantsCount, hp.query, hwants]
    simpa using hgrouped
  obtain ⟨main, count, hwrites⟩ := Plan.writes_of_compile hcompile hcounts
  refine ⟨p, main, count, hbuild, hwrites, fun db bag hplain => ?_⟩
  obtain ⟨params, hmain, -⟩ := hwrites.main
  obtain ⟨params', hcount, -⟩ := hwrites.count
  exact Plan.records_countSelect_iff db bag hp hgrouped hmain hcount hplain

/-- The ratings of players, and how many there are. -/
def ratings : Query :=
  { Placement.bestScores none none with
    projections := [⟨{ column := "rating" }, .dimension, "rating"⟩]
    pagination := some { wantTotal := true } }

/-- A plan that reads the ratings from the table alone. -/
def ratingsPlan : Plan where
  dialect := .sqlite
  query := ratings
  root := Placement.players.tables.head (by decide)
  rootAlias := "players"
  filters := {}
  outputs := [
    { column := {
        name := "rating", label := "rating", role := .dimension, grain := none
        valueType := .text }
      content := .dimension ⟨"\"players\".\"rating\"", "rating"⟩ }]
  hidden := []
  nestBy := []
  rowColumns := []
  joins := []

theorem build_ratings : Plan.build Placement.players .sqlite ratings = .ok ratingsPlan := by
  let root : Placement.players.Member := ⟨Placement.players.tables.head (by decide), by decide⟩
  have hfilters : Placement.of Placement.players ratings = .ok {} := by decide +kernel
  have hdraft : (Plan.draft .sqlite ratings root {}).run' [] = .ok (ratingsPlan, []) := by
    decide +kernel
  exact Plan.build_of_draft hfilters rfl hdraft

theorem compile_ratings : ∃ c, compile Placement.players .sqlite ratings = .ok c := by
  have hsome : (Plan.compile ratingsPlan).toOption.isSome = true := by decide +kernel
  obtain ⟨c, hc⟩ := Option.isSome_iff_exists.1 hsome
  exact ⟨c, (compile_of_build build_ratings).trans (ok_of_toOption hc)⟩

/-- With a rating in every row the ratings are counted right. -/
theorem compile_total_iff_ratings :
    ∃ c p main count, compile Placement.players .sqlite ratings = .ok c ∧
      Plan.build Placement.players .sqlite ratings = .ok p ∧ c.Writes p main count ∧
      ∀ a b : ℚ, let bag : List (SourceRow ℚ) := [fun _ => some a, fun _ => some b, fun _ => some a]
        count.records .numbers bag =
          Plan.totalRecord .numbers (main.records .numbers bag).length := by
  obtain ⟨c, hc⟩ := compile_ratings
  obtain ⟨p, main, count, hbuild, hwrites, htotal⟩ := compile_total_iff hc rfl (by decide)
  refine ⟨c, p, main, count, hc, hbuild, hwrites, fun a b => ?_⟩
  rw [build_ratings, Except.ok.injEq] at hbuild
  subst hbuild
  refine (htotal .numbers _ fun _ _ => rfl).2 fun _ r hr => ?_
  simp only [List.mem_cons, List.not_mem_nil, or_false] at hr
  rcases hr with rfl | rfl | rfl <;> rfl

/-- A row without a rating is a record of the main statement, but the count is zero. -/
theorem compile_total_noRating :
    ∃ c p main count, compile Placement.players .sqlite ratings = .ok c ∧
      Plan.build Placement.players .sqlite ratings = .ok p ∧ c.Writes p main count ∧
      let bag : List (SourceRow ℚ) := [fun _ => none]
      (main.records .numbers bag).length = 1 ∧
        count.records .numbers bag = Plan.totalRecord .numbers 0 ∧
        count.records .numbers bag ≠
          Plan.totalRecord .numbers (main.records .numbers bag).length := by
  obtain ⟨c, hc⟩ := compile_ratings
  obtain ⟨p, hbuild, hcompile⟩ := bind_ok hc
  rw [build_ratings, Except.ok.injEq] at hbuild
  subst hbuild
  obtain ⟨main, count, hwrites⟩ := Plan.writes_of_compile hcompile rfl
  refine ⟨c, ratingsPlan, main, count, hc, build_ratings, hwrites, ?_⟩
  obtain ⟨root, -, hp⟩ := Plan.build_drawn build_ratings
  obtain ⟨params, hmain, -⟩ := hwrites.main
  obtain ⟨params', hcount, -⟩ := hwrites.count
  intro bag
  have hlength : (main.records .numbers bag).length = 1 :=
    Plan.length_records_main .numbers bag hp (by decide) rfl hmain fun _ _ => rfl
  have htotal : count.records .numbers bag = Plan.totalRecord .numbers 0 :=
    Plan.records_countSelect_direct .numbers bag rfl hcount
  refine ⟨hlength, htotal, ?_⟩
  rw [hlength, htotal, Ne, Plan.totalRecord_inj]
  decide

end Rollup
