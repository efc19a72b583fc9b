/-
Two passes and one. A nested statement groups its rows by more than the dimensions and aggregates
what the metrics came to in these groups. For the metrics that need no second pass the result is
that of a single pass, whatever the rows are.
-/
import Rollup.Proofs.Compile.Outputs
import Rollup.Proofs.Compile.Shape
import Rollup.Proofs.Filter.Placement
import Rollup.Proofs.Sql.Regrouping

namespace Rollup

open Sql

namespace Plan

/-! ## Keys of the two passes -/

section

variable {V : Type} (p : Plan)

/-- What the inner statement groups by. -/
def fineKeys : List Expr :=
  (p.dimensions ++ p.nestBy).map fun g => .raw g.sql

/-- The values of the keys of the inner statement in a row. -/
def fineKey (r : SourceRow V) : List (Option V) :=
  p.fineKeys.map r

/-- The values of the dimensions among those of the keys of the inner statement. -/
def coarse (k : List (Option V)) : List (Option V) :=
  k.take p.dimensions.length

/-- What the main statement groups by in a second pass. -/
def outerKeys : List Expr :=
  p.dimensions.map fun g => p.inner g.label

variable {p}

theorem isKey_of_mem_fineKeys : ∀ e ∈ p.fineKeys, e.isKey = true := by
  intro e he
  obtain ⟨g, -, rfl⟩ := List.mem_map.1 he
  rfl

theorem isKey_of_mem_outerKeys : ∀ e ∈ p.outerKeys, e.isKey = true := by
  intro e he
  obtain ⟨g, -, rfl⟩ := List.mem_map.1 he
  rfl

theorem coarse_map_fineKeys (f : Expr → Option V) :
    p.coarse (p.fineKeys.map f) = p.dimensions.map fun g => f (.raw g.sql) := by
  rw [coarse, fineKeys, List.map_map, List.map_append, List.take_left' (List.length_map _)]
  rfl

theorem coarse_fineKey (r : SourceRow V) : p.coarse (p.fineKey r) = p.groupKey r :=
  coarse_map_fineKeys r

end

/-! ## The groups of the first pass -/

section

variable {V : Type} [LinearOrder V] (p : Plan) (bag : List (SourceRow V))

/-- The groups of the first pass whose dimensions have some values. -/
def fibre (k : List (Option V)) : List (List (SourceRow V)) :=
  ((bag.map p.fineKey).dedup.filter (p.coarse · = k)).map fun f => bag.filter (p.fineKey · = f)

variable {p bag}

theorem fibre_spec {k : List (Option V)} {g : List (SourceRow V)} (hg : g ∈ p.fibre bag k) :
    g ≠ [] ∧ ∃ f, p.coarse f = k ∧ ∀ r ∈ g, p.fineKey r = f := by
  obtain ⟨f, hf, rfl⟩ := List.mem_map.1 hg
  obtain ⟨hf, hk⟩ := List.mem_filter.1 hf
  obtain ⟨r, hr, hrf⟩ := List.mem_map.1 (List.mem_dedup.1 hf)
  refine ⟨List.ne_nil_of_mem (List.mem_filter.2 ⟨hr, by simpa using hrf⟩), f, by simpa using hk, ?_⟩
  exact fun r hr => by simpa using (List.mem_filter.1 hr).2

/-- The groups of the first pass make up those of a single one. -/
theorem flatten_fibre (k : List (Option V)) :
    (p.fibre bag k).flatten.Perm (bag.filter (p.groupKey · = k)) := by
  have hnodup := (List.nodup_dedup (bag.map p.fineKey)).filter (p.coarse · = k)
  refine (flatten_filters_perm p.fineKey bag hnodup).trans (List.Perm.of_eq ?_)
  refine List.filter_congr fun r hr => ?_
  have hmem : p.fineKey r ∈ bag.map p.fineKey := List.mem_map_of_mem hr
  simp [List.mem_filter, hmem, coarse_fineKey, -List.mem_map]

theorem fibre_ne_nil {k : List (Option V)} (hk : k ∈ bag.map p.groupKey) : p.fibre bag k ≠ [] := by
  obtain ⟨r, hr, rfl⟩ := List.mem_map.1 hk
  have hmem : p.fineKey r ∈ (bag.map p.fineKey).dedup.filter (p.coarse · = p.groupKey r) :=
    List.mem_filter.2 ⟨List.mem_dedup.2 (List.mem_map_of_mem hr), by simp [coarse_fineKey]⟩
  exact List.ne_nil_of_mem (List.mem_map_of_mem hmem)

end

/-! ## The second pass -/

section

variable {V : Type} [LinearOrder V] (db : Database V) (p : Plan) (base : Select)

/-- A group of the inner statement as a row of the main statement. -/
def innerRow (g : List (SourceRow V)) : SourceRow V :=
  ((p.innerSelect base).record (db.value p.fineKeys g)).row (some p.innerAlias)

variable {db p base} {bag : List (SourceRow V)}
  (hlabels : ((p.innerSelect base).items.map (·.label)).Nodup)

include hlabels

/-- A column of the inner statement has the value of the item with its label. -/
theorem innerRow_inner {i : Item} (hi : i ∈ (p.innerSelect base).items) {label : String}
    (hlabel : i.label = some label) (g : List (SourceRow V)) :
    innerRow db p base g (p.inner label) = db.value p.fineKeys g i.expr := by
  rw [innerRow, inner, Record.row, if_pos (Or.inr rfl)]
  exact Record.get_record hlabels hi hlabel

/-- In the second pass a group is told by the values of its dimensions. -/
theorem map_innerRow_outerKeys {g : List (SourceRow V)} {k : List (Option V)} (hg : g ≠ [])
    (hk : ∀ r ∈ g, p.fineKey r = k) : p.outerKeys.map (innerRow db p base g) = p.coarse k := by
  have hvalues : p.outerKeys.map (innerRow db p base g) =
      p.dimensions.map fun d => db.value p.fineKeys g (.raw d.sql) := by
    rw [outerKeys, List.map_map]
    refine List.map_congr_left fun d hd => ?_
    refine innerRow_inner hlabels (i := groupingItem d) ?_ rfl g
    exact List.mem_append_left _ (List.mem_map_of_mem (List.mem_append_left _ hd))
  rw [hvalues, ← map_value_keys db isKey_of_mem_fineKeys hg hk, coarse_map_fineKeys]

/-- The groups of the second pass, each with the groups of the first it is made of. -/
theorem partitionBy_outerKeys :
    partitionBy (fun r => p.outerKeys.map r)
        ((partitionBy p.fineKey bag).map (innerRow db p base)) =
      (((bag.map p.fineKey).dedup.map p.coarse).dedup).map fun k =>
        (p.fibre bag k).map (innerRow db p base) := by
  have hcoarse : ∀ f ∈ (bag.map p.fineKey).dedup,
      p.outerKeys.map (innerRow db p base (bag.filter (p.fineKey · = f))) = p.coarse f := by
    intro f hf
    obtain ⟨r, hr, hrf⟩ := List.mem_map.1 (List.mem_dedup.1 hf)
    refine map_innerRow_outerKeys hlabels ?_ fun r hr => by simpa using (List.mem_filter.1 hr).2
    exact List.ne_nil_of_mem (List.mem_filter.2 ⟨hr, by simpa using hrf⟩)
  have hkeys : ((partitionBy p.fineKey bag).map (innerRow db p base)).map
      (fun r => p.outerKeys.map r) = (bag.map p.fineKey).dedup.map p.coarse := by
    rw [partitionBy, List.map_map, List.map_map]
    exact List.map_congr_left hcoarse
  rw [partitionBy, hkeys]
  refine List.map_congr_left fun k _ => ?_
  rw [partitionBy, fibre, List.filter_map, List.filter_map, List.map_map, List.map_map]
  refine congrArg (List.map _) (List.filter_congr fun f hf => ?_)
  simp only [Function.comp, hcoarse f hf]

omit hlabels

/-- The rows of the second pass are the groups of the first. -/
theorem sourceRows_innerSelect (hbase : sourceRows db bag base.source = bag)
    (hdistinct : base.distinct = false) (hhaving : base.having = none)
    (hgroups : p.dimensions ++ p.nestBy ≠ []) :
    sourceRows db bag (some ⟨.query (p.innerSelect base), some p.innerAlias⟩) =
      (partitionBy p.fineKey bag).map (innerRow db p base) := by
  have hkeys : (p.innerSelect base).groupBy ≠ [] := by
    rw [innerSelect, ne_eq, List.map_eq_nil_iff]
    exact hgroups
  have hentries := Select.entries_grouped db bag hkeys hhaving hdistinct
  rw [sourceRows, Source.rows, Relation.rows, hentries, List.map_map]
  exact congrArg (fun rows => (partitionBy p.fineKey rows).map (innerRow db p base)) hbase

end

/-! ## Values in the second pass -/

section

variable {V : Type} [LinearOrder V] (db : Database V) {p : Plan} {base : Select}
  {bag : List (SourceRow V)} {k : List (Option V)}
  (hlabels : ((p.innerSelect base).items.map (·.label)).Nodup) (hk : k ∈ bag.map p.groupKey)

include hlabels hk

/-- The dimensions have the values of the group. -/
theorem map_value_dimensions (hnested : p.nested = true) :
    p.dimensions.map (fun g => db.value p.outerKeys ((p.fibre bag k).map (innerRow db p base))
      (p.dimensionExpr g)) = k := by
  have hrows : (p.fibre bag k).map (innerRow db p base) ≠ [] := by
    simpa using fibre_ne_nil hk
  have hkeys : ∀ r ∈ (p.fibre bag k).map (innerRow db p base), p.outerKeys.map r = k := by
    intro r hr
    obtain ⟨g, hg, rfl⟩ := List.mem_map.1 hr
    obtain ⟨hne, f, hfk, hf⟩ := fibre_spec hg
    exact (map_innerRow_outerKeys hlabels hne hf).trans hfk
  simp only [dimensionExpr, hnested, if_true]
  exact List.map_map.symm.trans (map_value_keys db isKey_of_mem_outerKeys hrows hkeys)

omit hk

/-- What the inner statement makes of a metric, read in some of its groups. -/
theorem map_innerRow_partial {s : Metric} (hs : s ∈ p.metrics) {i : Item} (hi : i ∈ p.partials s)
    {label : String} (hlabel : i.label = some label) {f : List (Option V) → Option V}
    (hf : ∀ keys g, db.value keys g i.expr = f (g.map (· (.raw s.sql))))
    (groups : List (List (SourceRow V))) :
    (groups.map (innerRow db p base)).map (· (p.inner label)) =
      (groups.map fun g => g.map (· (.raw s.sql))).map f := by
  have hitem : i ∈ (p.innerSelect base).items :=
    List.mem_append_right _ (List.mem_flatMap.2 ⟨s, hs, hi⟩)
  rw [List.map_map, List.map_map]
  refine List.map_congr_left fun g _ => ?_
  exact (innerRow_inner hlabels hitem hlabel g).trans (hf _ g)

/-- A metric that needs no second pass has over some groups the value it has in a single pass over
what they make up. For a count there must be a group, be it empty. -/
theorem value_metricExpr_groups (hnested : p.nested = true) {s : Metric} (hs : s ∈ p.metrics)
    (htwo : s.twoPass = false) (hpartial : s.reaggregates = true)
    {groups : List (List (SourceRow V))} {rows : List (SourceRow V)}
    (hrows : groups.flatten.Perm rows) (hcount : s.aggregation = some .count → groups ≠ [])
    (keys : List Expr) :
    db.value p.outerKeys (groups.map (innerRow db p base)) (p.metricExpr s) =
      db.value keys rows (aggregate s.aggregation (.raw s.sql)) := by
  -- the values in the groups, and all of them together
  let gs := groups.map fun g => g.map (· (.raw s.sql))
  have hflatten : gs.flatten.Perm (rows.map (· (.raw s.sql))) := by
    have hvalues := hrows.map (· (.raw s.sql))
    rwa [List.map_flatten] at hvalues
  have hpartials : ∀ a, s.aggregation = some a → p.partials s = if a = .avg
      then [labelled (Expr.raw s.sql).sum (p.partialAlias s "sum"),
        labelled (Expr.raw s.sql).count (p.partialAlias s "count")]
      else [labelled (aggregate (some a) (.raw s.sql)) s.label] := by
    intro a ha
    rw [partials, htwo, ha]
    cases a <;> rfl
  have hread {i : Item} {label : String} {f : List (Option V) → Option V} (hi : i ∈ p.partials s)
      (hlabel : i.label = some label)
      (hf : ∀ keys g, db.value keys g i.expr = f (g.map (· (.raw s.sql)))) :
      (groups.map (innerRow db p base)).map (· (p.inner label)) = gs.map f :=
    map_innerRow_partial db hlabels hs hi hlabel hf groups
  rw [metricExpr, hnested, htwo]
  cases hagg : s.aggregation with
  | none => simp [Metric.reaggregates, hagg] at hpartial
  | some a =>
    have hpartials := hpartials a hagg
    cases a with
    | countDistinct => simp [Metric.reaggregates, hagg] at hpartial
    | sum =>
      have hsums := hread (i := labelled (Expr.raw s.sql).sum s.label) (f := db.sum)
        (by simp [hpartials, aggregate]) rfl fun _ _ => rfl
      calc db.sum _ = db.sum gs.flatten := by rw [hsums, db.sum_map_sum]
        _ = _ := db.sum_perm hflatten
    | min =>
      have hmins := hread (i := labelled (Expr.raw s.sql).min s.label) (f := combine min)
        (by simp [hpartials, aggregate]) rfl fun _ _ => rfl
      calc combine min _ = combine min gs.flatten := by rw [hmins, combine_flatten]
        _ = _ := combine_perm min hflatten
    | max =>
      have hmaxs := hread (i := labelled (Expr.raw s.sql).max s.label) (f := combine max)
        (by simp [hpartials, aggregate]) rfl fun _ _ => rfl
      calc combine max _ = combine max gs.flatten := by rw [hmaxs, combine_flatten]
        _ = _ := combine_perm max hflatten
    | count =>
      have hgs : gs ≠ [] := by simpa [gs] using hcount hagg
      have hcounts := hread (i := labelled (Expr.raw s.sql).count s.label) (f := db.count)
        (by simp [hpartials, aggregate]) rfl fun _ _ => rfl
      calc db.sum _ = db.count gs.flatten := by rw [hcounts, db.sum_map_count hgs]
        _ = _ := db.count_perm hflatten
    | avg =>
      have hsums := hread (i := labelled (Expr.raw s.sql).sum (p.partialAlias s "sum"))
        (f := db.sum) (by simp [hpartials]) rfl fun _ _ => rfl
      have hcounts := hread (i := labelled (Expr.raw s.sql).count (p.partialAlias s "count"))
        (f := db.count) (by simp [hpartials]) rfl fun _ _ => rfl
      have hone : db.value p.outerKeys (groups.map (innerRow db p base)) (.raw "1.0") =
          some (db.number 1) := by
        rw [Database.value, if_neg (by simp [outerKeys, inner]), db.formula_one]
      calc db.quotient (db.times (db.sum _) (db.value _ _ _)) (db.sum _) = db.avg gs.flatten := by
            rw [hone, hsums, hcounts, db.quotient_sums gs]
        _ = _ := db.avg_perm hflatten

include hk

/-- So it has the value of a single pass in every group of dimensions. -/
theorem value_metricExpr (hnested : p.nested = true) {s : Metric} (hs : s ∈ p.metrics)
    (htwo : s.twoPass = false) (hpartial : s.reaggregates = true) (keys : List Expr) :
    db.value p.outerKeys ((p.fibre bag k).map (innerRow db p base)) (p.metricExpr s) =
      db.value keys (bag.filter (p.groupKey · = k)) (aggregate s.aggregation (.raw s.sql)) :=
  value_metricExpr_groups db hlabels hnested hs htwo hpartial (flatten_fibre k)
    (fun _ => fibre_ne_nil hk) keys

end

end Plan

/-! ## The query without the metrics of two passes -/

/-- Whether an output column is a metric that needs two passes. -/
def Output.isTwoPass (o : Output) : Bool :=
  match o.content with
  | .dimension _ => false
  | .metric s => s.twoPass

namespace Plan

/-- Whether a projection is no metric that needs two passes. -/
def keeps (p : Plan) (x : Projection) : Bool :=
  !p.outputs.any fun o => o.isTwoPass && o.column.name == x.name

/-- The query without the metrics that need two passes. -/
def singlePass (p : Plan) : Query :=
  { p.query with projections := p.query.projections.filter p.keeps }

/-- How the plan of a nested query and that of the query without its metrics of two passes belong
together, when there are no conditions on groups. -/
structure Splits (p p' : Plan) : Prop where
  nested : p.nested = true
  dimensions : p.dimensions ≠ []
  nests : ∀ s ∈ p.metrics, s.twoPass = true ∨ s.reaggregates = true
  labels : (p.outputs.map (·.column.label)).Nodup
  names : (p.outputs.map (·.column.name)).Nodup
  free : p.filters.groups = none
  nested' : p'.nested = false
  aggregated' : p'.query.isAggregated = true
  outputs' : p'.outputs = p.outputs.filter (!·.isTwoPass)
  free' : p'.filters.groups = none
  dialect' : p'.dialect = p.dialect
  sorting' : p'.query.sorting = p.query.sorting
  pagination' : p'.query.pagination = p.query.pagination

namespace Splits

variable {p p' : Plan} (h : Splits p p')

include h

theorem dimensions_eq : p'.dimensions = p.dimensions := by
  rw [Plan.dimensions, h.outputs', Plan.dimensions, groupings, groupings, List.filterMap_filter]
  refine List.filterMap_congr fun o _ => ?_
  unfold Output.isTwoPass
  cases o.content <;> simp

theorem mem_outputs {o : Output} (ho : o ∈ p'.outputs) : o ∈ p.outputs ∧ o.isTwoPass = false := by
  rw [h.outputs', List.mem_filter] at ho
  simpa using ho

/-- The labels of the single pass are those of the output columns it shares. -/
theorem label_mem_iff {o : Output} (ho : o ∈ p.outputs) :
    o.column.label ∈ p'.outputs.map (·.column.label) ↔ o.isTwoPass = false := by
  constructor
  · intro hmem
    obtain ⟨o', ho', hlabel⟩ := List.mem_map.1 hmem
    obtain ⟨hmem', htwo⟩ := h.mem_outputs ho'
    rwa [← List.inj_on_of_nodup_map h.labels hmem' ho hlabel]
  · intro htwo
    refine List.mem_map_of_mem ?_
    rw [h.outputs', List.mem_filter]
    exact ⟨ho, by simpa using htwo⟩

/-- Both name the output columns of the single pass alike. -/
theorem outputNamed?_eq {name : String} {o : Output} (ho : p'.outputNamed? name = some o) :
    p.outputNamed? name = some o := by
  obtain ⟨hmem, -⟩ := h.mem_outputs (List.mem_of_find?_eq_some ho)
  have hname : o.column.name = name := by simpa using List.find?_some ho
  cases hfound : p.outputNamed? name with
  | none =>
    have := List.find?_eq_none.1 hfound o hmem
    simp [hname] at this
  | some o' =>
    have hname' : o'.column.name = name := by simpa using List.find?_some hfound
    rw [List.inj_on_of_nodup_map h.names hmem (List.mem_of_find?_eq_some hfound)
      (hname.trans hname'.symm)]

end Splits

/-! ## Records of both -/

theorem aggregate_ne_column (a : Option Aggregation) {e : Expr}
    (he : ∀ name, e ≠ .column none name) (name : String) :
    aggregate a e ≠ .column none name := by
  cases a with
  | none => exact he name
  | some a => cases a <;> exact nofun

/-- No output column is a name on its own. -/
theorem outputExpr_ne_column (p : Plan) (o : Output) (name : String) :
    p.outputExpr o ≠ .column none name := by
  unfold outputExpr
  cases o.content with
  | dimension g =>
    simp only [dimensionExpr]
    split <;> exact nofun
  | metric s =>
    simp only [metricExpr]
    split
    · exact aggregate_ne_column _ (fun _ h => by cases h) name
    · split
      · exact aggregate_ne_column _ (fun _ h => by cases h) name
      · split
        · exact nofun
        · exact nofun
        · exact aggregate_ne_column _ (fun _ h => by cases h) name

/-- An output column has its value in the record of the output columns. -/
theorem get_record_output {V : Type} {p : Plan} {s : Select} (hs : s.items = p.outputItems)
    (hlabels : (p.outputs.map (·.column.label)).Nodup) {o : Output} (ho : o ∈ p.outputs)
    (u : SourceRow V) : (s.record u).get o.column.label = u (p.outputExpr o) := by
  have hnodup : (s.items.map (·.label)).Nodup := by
    rw [hs, outputItems, List.map_map]
    have hsome := (List.nodup_map_iff (Option.some_injective String)).2 hlabels
    rwa [List.map_map] at hsome
  refine Record.get_record (i := labelled (p.outputExpr o) o.column.label) hnodup ?_ rfl
  rw [hs]
  exact List.mem_map_of_mem ho

/-- A record is ordered by the value of the output column with the name. -/
theorem sortValue_orderOf {V : Type} {p : Plan} {s : Select} (hs : s.items = p.outputItems)
    (hlabels : (p.outputs.map (·.column.label)).Nodup) {key : SortKey} {o : Order}
    (ho : p.orderOf key = .ok o) :
    ∃ x, p.outputNamed? key.key = some x ∧ o.direction = key.direction ∧
      ∀ u : SourceRow V, s.sortValue u o = u (p.outputExpr x) := by
  unfold orderOf at ho
  split at ho
  · rename_i x hx
    cases ho
    refine ⟨x, hx, rfl, fun u => ?_⟩
    have hmem : x ∈ p.outputs := List.mem_of_find?_eq_some hx
    split
    · exact get_record_output hs hlabels hmem u
    · unfold Select.sortValue
      split
      · rename_i name hname
        exact absurd hname (outputExpr_ne_column p x name)
      · rfl
  · split at ho <;> cases ho

section

variable {V : Type} [LinearOrder V] (db : Database V) (bag : List (SourceRow V)) (p p' : Plan)
  (base : Select)

/-- The values of expressions over a group of the second pass. -/
def nestedUnit (k : List (Option V)) : SourceRow V :=
  db.value p.outerKeys ((p.fibre bag k).map (innerRow db p base))

/-- The values of expressions over a group of a single pass. -/
def singleUnit (k : List (Option V)) : SourceRow V :=
  db.value (p'.dimensions.map fun g => .raw g.sql) (bag.filter (p'.groupKey · = k))

variable {db bag p p' base} (h : Splits p p')
  (hlabels : ((p.innerSelect base).items.map (·.label)).Nodup) {k : List (Option V)}
  (hk : k ∈ bag.map p.groupKey)

include h hlabels hk

/-- What both return has the same values in both. -/
theorem unit_outputExpr {o : Output} (ho : o ∈ p'.outputs) :
    nestedUnit db bag p base k (p.outputExpr o) = singleUnit db bag p' k (p'.outputExpr o) := by
  obtain ⟨hmem, htwo⟩ := h.mem_outputs ho
  have hkey : p'.groupKey (V := V) = p.groupKey := by
    funext r
    rw [groupKey, groupKey, h.dimensions_eq]
  unfold outputExpr nestedUnit singleUnit
  rw [hkey, h.dimensions_eq]
  cases hcontent : o.content with
  | dimension g =>
    have hgroup : bag.filter (p.groupKey · = k) ≠ [] := by
      obtain ⟨r, hr, rfl⟩ := List.mem_map.1 hk
      exact List.ne_nil_of_mem (List.mem_filter.2 ⟨hr, by simp⟩)
    have hkeys : ∀ e ∈ p.dimensions.map fun g => Expr.raw g.sql, e.isKey = true := by
      simp [Expr.isKey]
    have hrows : ∀ r ∈ bag.filter (p.groupKey · = k),
        (p.dimensions.map fun g => Expr.raw g.sql).map r = k := by
      intro r hr
      rw [List.map_map]
      exact of_decide_eq_true (List.mem_filter.1 hr).2
    have hsingle := map_value_keys db hkeys hgroup hrows
    rw [List.map_map] at hsingle
    have hvalues := List.map_inj_left.1
      ((map_value_dimensions db hlabels hk h.nested).trans hsingle.symm) g
      (mem_groupings.2 ⟨o, hmem, hcontent⟩)
    simpa [dimensionExpr, h.nested'] using hvalues
  | metric s =>
    have hs : s ∈ p.metrics :=
      List.mem_append_left _ (mem_projectedMetrics.2 ⟨o, hmem, hcontent⟩)
    have hplain : s.twoPass = false := by simpa [Output.isTwoPass, hcontent] using htwo
    have hpartial := (h.nests s hs).resolve_left (by simp [hplain])
    have hsingle : p'.metricExpr s = aggregate s.aggregation (.raw s.sql) := by
      simp [metricExpr, h.nested']
    simp only [hsingle]
    exact value_metricExpr db hlabels hk h.nested hs hplain hpartial _

/-- The record of a group in two passes holds the record in a single pass. -/
theorem only_record {s s' : Select} (hs : s.items = p.outputItems)
    (hs' : s'.items = p'.outputItems) :
    (s.record (nestedUnit db bag p base k)).only (p'.outputs.map (·.column.label)) =
      s'.record (singleUnit db bag p' k) := by
  simp only [Select.record, hs, hs', outputItems, List.map_map, Record.only, List.filter_map]
  have hfilter : p.outputs.filter ((fun e : Option String × Option V =>
        e.1.any (p'.outputs.map (·.column.label)).contains) ∘
      ((fun i : Item => (i.label, nestedUnit db bag p base k i.expr)) ∘
        fun o => labelled (p.outputExpr o) o.column.label)) = p'.outputs := by
    rw [h.outputs']
    refine List.filter_congr fun o ho => ?_
    have hmem := h.label_mem_iff ho
    rw [h.outputs'] at hmem
    simp only [Function.comp, labelled, Option.any_some, List.contains_eq_mem, hmem]
    cases o.isTwoPass <;> rfl
  rw [hfilter]
  refine List.map_congr_left fun o ho => ?_
  simp only [Function.comp, labelled, unit_outputExpr h hlabels hk ho]

/-- Both order by the same values. -/
theorem sortValue_eq {s s' : Select} (hs : s.items = p.outputItems)
    (hs' : s'.items = p'.outputItems) {key : SortKey} {o o' : Order}
    (ho : p.orderOf key = .ok o) (ho' : p'.orderOf key = .ok o') :
    s.sortValue (nestedUnit db bag p base k) o = s'.sortValue (singleUnit db bag p' k) o' := by
  have hlabels' : (p'.outputs.map (·.column.label)).Nodup := by
    rw [h.outputs']
    exact h.labels.sublist (List.filter_sublist.map _)
  obtain ⟨x, hx, -, hvalue⟩ := sortValue_orderOf hs h.labels ho
  obtain ⟨x', hx', -, hvalue'⟩ := sortValue_orderOf hs' hlabels' ho'
  rw [h.outputNamed?_eq hx', Option.some.injEq] at hx
  subst hx
  rw [hvalue, hvalue']
  exact unit_outputExpr h hlabels hk (List.mem_of_find?_eq_some hx')

theorem sortValues_eq {s s' : Select} (hs : s.items = p.outputItems)
    (hs' : s'.items = p'.outputItems) {keys : List SortKey}
    (ho : List.Forall₂ (fun key o => p.orderOf key = .ok o) keys s.orderBy)
    (ho' : List.Forall₂ (fun key o => p'.orderOf key = .ok o) keys s'.orderBy) :
    s.sortValues (nestedUnit db bag p base k) = s'.sortValues (singleUnit db bag p' k) := by
  unfold Select.sortValues
  generalize s.orderBy = os at ho
  generalize s'.orderBy = os' at ho'
  induction ho generalizing os' with
  | nil =>
    cases ho'
    rfl
  | cons ho _ ih =>
    cases ho' with
    | cons ho' hrest =>
      rw [List.map_cons, List.map_cons, ih _ hrest, sortValue_eq h hlabels hk hs hs' ho ho']

end

/-! ## Results of both -/

section

variable {V : Type} [LinearOrder V] {db : Database V} {bag : List (SourceRow V)} {p : Plan}
  {base : Select} {orderBy : List Order} {page : Option Page}

/-- Two passes make a record of every group of values of the dimensions. -/
theorem entries_nested {s : Select}
    (hs : s = { p.grouped base with having := none, orderBy, page }) (hnested : p.nested = true)
    (hdims : p.dimensions ≠ []) (hbase : sourceRows db bag base.source = bag)
    (hdistinct : base.distinct = false) (hhaving : base.having = none)
    (hlabels : ((p.innerSelect base).items.map (·.label)).Nodup) :
    s.entries db bag = (((bag.map p.fineKey).dedup.map p.coarse).dedup).map fun k =>
      (s.record (nestedUnit db bag p base k), s.sortValues (nestedUnit db bag p base k)) := by
  have hshape : s.groupBy = p.outerKeys ∧ s.distinct = false ∧ s.having = none ∧
      s.source = some ⟨.query (p.innerSelect base), some p.innerAlias⟩ := by
    subst hs
    simp [grouped, hnested, outerKeys]
  obtain ⟨hgroups, hplain, hfree, hsource⟩ := hshape
  have hkeys : s.groupBy ≠ [] := by simpa [hgroups, outerKeys] using hdims
  rw [Select.entries_grouped db bag hkeys hfree hplain, hsource,
    sourceRows_innerSelect hbase hdistinct hhaving (List.append_ne_nil_of_left_ne_nil hdims _),
    hgroups,
    partitionBy_outerKeys hlabels, List.map_map]
  rfl

/-- So does a single pass. -/
theorem entries_single {s : Select}
    (hs : s = { p.grouped base with having := none, orderBy, page }) (hnested : p.nested = false)
    (hagg : p.query.isAggregated = true) (hdims : p.dimensions ≠ [])
    (hbase : sourceRows db bag base.source = bag) (hdistinct : base.distinct = false) :
    s.entries db bag = (bag.map p.groupKey).dedup.map fun k =>
      (s.record (singleUnit db bag p k), s.sortValues (singleUnit db bag p k)) := by
  have hshape : s.groupBy = p.dimensions.map (fun g => .raw g.sql) ∧ s.distinct = false ∧
      s.having = none ∧ s.source = base.source := by
    subst hs
    simp [grouped, hnested, hagg, hdistinct]
  obtain ⟨hgroups, hplain, hfree, hsource⟩ := hshape
  have hkeys : s.groupBy ≠ [] := by simpa [hgroups] using hdims
  have hkey : (fun r : SourceRow V => s.groupBy.map r) = p.groupKey := by
    funext r
    rw [hgroups, List.map_map]
    rfl
  rw [Select.entries_grouped db bag hkeys hfree hplain, hsource, hbase, hkey, partitionBy,
    List.map_map]
  exact List.map_congr_left fun k _ => by rw [hgroups]; rfl

end

section

variable {V : Type} [LinearOrder V] {db : Database V} {bag : List (SourceRow V)} {p p' : Plan}
  {main main' : Select} {params params' : List Operand} (h : Splits p p')
  (hmain : p.main.run [] = .ok (main, params)) (hmain' : p'.main.run [] = .ok (main', params'))

include h hmain hmain'

/-- Both are ordered in the same directions and cut to the same page. -/
theorem order_and_page_eq :
    main'.orderBy.map (·.direction) = main.orderBy.map (·.direction) ∧ main'.page = main.page := by
  obtain ⟨rows, orderBy, _, -, horders, rfl⟩ := main_run hmain
  obtain ⟨rows', orderBy', _, -, horders', rfl⟩ := main_run hmain'
  have hdirections : ∀ {p : Plan} {keys : List SortKey} {os : List Order},
      List.Forall₂ (fun k o => p.orderOf k = .ok o) keys os →
        os.map (·.direction) = keys.map (·.direction) := by
    intro p keys os hos
    induction hos with
    | nil => rfl
    | cons ho _ ih =>
      rw [List.map_cons, List.map_cons, ih]
      congr 1
      unfold orderOf at ho
      split at ho
      · cases ho; rfl
      · split at ho <;> cases ho
  refine ⟨?_, ?_⟩
  · rw [hdirections horders, hdirections horders', h.sorting']
  · simp only [page?, h.pagination']

/-- The records of both are the same, but for the metrics of two passes. -/
theorem entries_perm (hlabels : ((p.innerSelect {}).items.map (·.label)).Nodup) :
    ((main.entries db bag).map fun e =>
      (e.1.only (p'.outputs.map (·.column.label)), e.2)).Perm (main'.entries db bag) := by
  obtain ⟨rows, orderBy, _, hrows, horders, hs⟩ := main_run hmain
  obtain ⟨rows', orderBy', _, hrows', horders', hs'⟩ := main_run hmain'
  obtain ⟨base, having, _, hbase, hfree, rfl⟩ := rows_run hrows
  obtain ⟨base', having', _, hbase', hfree', rfl⟩ := rows_run hrows'
  obtain ⟨condition, rfl⟩ := base_run hbase
  obtain ⟨condition', rfl⟩ := base_run hbase'
  rw [hfree h.free] at hs
  rw [hfree' h.free'] at hs'
  have hdims' : p'.dimensions ≠ [] := h.dimensions_eq ▸ h.dimensions
  have hkey : p'.groupKey (V := V) = p.groupKey := by
    funext r
    rw [groupKey, groupKey, h.dimensions_eq]
  rw [entries_nested hs h.nested h.dimensions (sourceRows_sourceOf db bag _ _) rfl rfl hlabels,
    entries_single hs' h.nested' h.aggregated' hdims' (sourceRows_sourceOf db bag _ _) rfl,
    List.map_map, hkey]
  have hkeys := dedup_map_dedup_perm p.fineKey bag p.coarse
  simp only [coarse_fineKey] at hkeys
  refine (hkeys.map _).trans (List.Perm.of_eq (List.map_congr_left fun k hk => ?_))
  replace hk := List.mem_dedup.1 hk
  have hitems : main.items = p.outputItems := by
    subst hs
    simp [grouped, h.nested]
  have hitems' : main'.items = p'.outputItems := by
    subst hs'
    simp [grouped, h.nested', h.aggregated']
  simp only [Function.comp, Prod.mk.injEq]
  have horder : main.orderBy = orderBy := by rw [hs]
  have horder' : main'.orderBy = orderBy' := by rw [hs']
  rw [← horder] at horders
  rw [← horder', h.sorting'] at horders'
  exact ⟨only_record h hlabels hk hitems hitems',
    sortValues_eq h hlabels hk hitems hitems' horders horders'⟩

/-- What the nested statement may return, without the metrics of two passes, is what the single pass
may return. -/
theorem returns_iff (hlabels : ((p.innerSelect {}).items.map (·.label)).Nodup)
    (out' : List (Record V)) :
    main'.Returns db bag out' ↔ ∃ out, main.Returns db bag out ∧
      out' = out.map fun r => r.only (p'.outputs.map (·.column.label)) := by
  obtain ⟨hdirections, hpage⟩ := order_and_page_eq h hmain hmain'
  have hperm : List.Perm _ (main'.entries db bag) := entries_perm h hmain hmain' hlabels
  unfold Select.Returns
  rw [hdirections, hpage]
  constructor
  · rintro ⟨es', hes', hsorted, rfl⟩
    obtain ⟨es, hes, rfl⟩ := exists_perm_of_perm_map (hes'.trans hperm.symm)
    rw [List.pairwise_map] at hsorted
    refine ⟨_, ⟨es, hes, hsorted, rfl⟩, ?_⟩
    rw [← Page.cut_map, List.map_map, List.map_map]
    rfl
  · rintro ⟨out, ⟨es, hes, hsorted, rfl⟩, rfl⟩
    refine ⟨_, (hes.map _).trans hperm, List.pairwise_map.2 hsorted, ?_⟩
    rw [← Page.cut_map, List.map_map, List.map_map]
    rfl

end

end Plan

end Rollup
