/-
Which texts stand in the statements of a plan. In two passes the texts of columns are all in the
inner statement, which reads the table and its joins, and the outer one only names what the inner
one selects; in one pass there is only the statement that reads the table. A statement that counts
has one of these inside, or reads the table itself.

Conditions and values are made by operators, so this is said for every property that operators pass
on: what the outermost statement makes of what it reads has the property if that has it.
-/
import Rollup.Proofs.Compile.Shape
import Rollup.Proofs.Sql.Texts

namespace Rollup

open Sql

/-! ## Conditions -/

namespace Condition

variable {d : Dialect} {vs vs' : List Operand}

theorem bind_run {v : Operand} {e : Expr} (h : (bind v).run vs = .ok (e, vs')) :
    ∃ n, e = .param n := by
  cases h
  exact ⟨_, rfl⟩

theorem offered_run {op : Operator} {e? : Option Expr} {e : Expr}
    (h : (offered d op e?).run vs = .ok (e, vs')) : e? = some e := by
  cases e? with
  | none => cases h
  | some e' =>
    cases h
    rfl

section

variable {P : Expr → Prop} (hP : Expr.Composes P)

include hP

theorem composes_bind {v : Operand} {e : Expr} (h : (bind v).run vs = .ok (e, vs')) : P e := by
  obtain ⟨n, rfl⟩ := bind_run h
  exact hP.param n

theorem composes_mapM {g : Operand → Operand} {ws : List Operand} {es : List Expr}
    (h : (ws.mapM fun v => bind (g v)).run vs = .ok (es, vs')) : ∀ e ∈ es, P e := by
  induction ws generalizing vs es with
  | nil =>
    cases h
    exact fun e he => (List.not_mem_nil he).elim
  | cons w ws ih =>
    rw [List.mapM_cons] at h
    obtain ⟨e, _, he, h⟩ := run_bind_ok h
    obtain ⟨es', _, hes, h⟩ := run_bind_ok h
    cases h
    exact List.forall_mem_cons.2 ⟨composes_bind hP he, ih hes⟩

theorem composes_casedColumn {e : Expr} (he : P e) (case : LetterCase) :
    P (casedColumn case e) := by
  cases case with
  | sensitive => exact he
  | insensitive => exact hP.function "LOWER" he

theorem composes_negatedIf {e : Expr} (he : P e) (negated : Bool) : P (negatedIf negated e) := by
  cases negated with
  | true => exact hP.not (hP.paren he)
  | false => exact he

/-- One case for each kind of operator: its operands are parameters. -/
theorem composes_ofPredicate {column : Expr} {p : Predicate} {e : Expr} (hcolumn : P column)
    (h : (ofPredicate d column p).run vs = .ok (e, vs')) : P e := by
  obtain ⟨path, op, values⟩ := p
  unfold ofPredicate at h
  cases op with
  | compare c =>
    obtain ⟨v, _, hv, h⟩ := run_bind_ok h
    cases h
    exact hP.binary hcolumn _ (composes_bind hP hv)
  | oneOf negated case =>
    obtain ⟨es, _, hes, h⟩ := run_bind_ok h
    cases h
    exact hP.inList (composes_casedColumn hP hcolumn case) negated (composes_mapM hP hes)
  | between negated =>
    obtain ⟨low, _, hlow, h⟩ := run_bind_ok h
    obtain ⟨high, _, hhigh, h⟩ := run_bind_ok h
    cases h
    exact hP.between hcolumn negated (composes_bind hP hlow) (composes_bind hP hhigh)
  | find anchor case =>
    obtain ⟨v, _, hv, h⟩ := run_bind_ok h
    cases h
    exact hP.like (composes_casedColumn hP hcolumn case) false (composes_bind hP hv) escapeChar
  | isNull negated =>
    cases h
    exact hP.isNull hcolumn negated
  | isEmpty negated =>
    obtain ⟨v, _, hv, h⟩ := run_bind_ok h
    cases h
    exact composes_negatedIf hP (hP.hasNone? hcolumn (offered_run hv)) negated
  | hasMember negated =>
    obtain ⟨v, _, hv, h⟩ := run_bind_ok h
    obtain ⟨w, _, hw, h⟩ := run_bind_ok h
    cases h
    have hholds := hP.holds? hcolumn (composes_bind hP hv) (offered_run hw)
    exact composes_negatedIf hP hholds negated

variable {column : Predicate → Except CompileError Expr} (hcolumn : ∀ t e, column t = .ok e → P e)

include hcolumn

theorem composes_operands {f : Filter} {ands : Bool} {es : List Expr}
    (h : (operands d column ands f).run vs = .ok (es, vs')) : ∀ e ∈ es, P e := by
  induction f generalizing ands vs vs' es with
  | and a b iha ihb =>
    obtain ⟨left, _, hleft, h⟩ := run_bind_ok h
    obtain ⟨right, _, hright, h⟩ := run_bind_ok h
    cases h
    have hall := List.forall_mem_append.2 ⟨iha hleft, ihb hright⟩
    split
    · exact hall
    · exact fun e he => hP.all? hall e (Option.mem_toList.1 he)
  | or a b iha ihb =>
    obtain ⟨left, _, hleft, h⟩ := run_bind_ok h
    obtain ⟨right, _, hright, h⟩ := run_bind_ok h
    cases h
    have hall := List.forall_mem_append.2 ⟨iha hleft, ihb hright⟩
    split
    · exact fun e he => hP.any? hall e (Option.mem_toList.1 he)
    · exact hall
  | not f ih =>
    obtain ⟨inner, _, hinner, h⟩ := run_bind_ok h
    cases h
    refine List.forall_mem_map.2 fun e he => hP.not (hP.paren ?_)
    exact hP.any? (ih hinner) e (Option.mem_toList.1 he)
  | test p =>
    obtain ⟨column, _, hlift, h⟩ := run_bind_ok h
    obtain ⟨_, hcolumn', hlift⟩ := bind_ok hlift
    cases hlift
    obtain ⟨e, _, he, h⟩ := run_bind_ok h
    cases h
    exact List.forall_mem_singleton.2 (composes_ofPredicate hP (hcolumn _ _ hcolumn') he)

theorem composes_ofFilter {f : Filter} {e? : Option Expr}
    (h : (ofFilter d column f).run vs = .ok (e?, vs')) : ∀ e ∈ e?, P e := by
  obtain ⟨es, _, hes, h⟩ := run_bind_ok h
  cases h
  exact hP.any? (composes_operands hP hcolumn hes)

end

end Condition

/-! ## Statements -/

namespace Sql.Select

/-- The expressions of a statement, the conditions of its joins apart. -/
def exprs (s : Select) : List Expr :=
  s.items.map (·.expr) ++ s.condition.toList ++ s.groupBy ++ s.having.toList ++
    s.orderBy.map (·.expr)

/-- A statement is another one, or is inside it as the source of its rows. -/
inductive Within (r : Select) : Select → Prop
  | here : Within r r
  | source {s t label} (hsource : s.source = some ⟨.query t, label⟩) (h : Within r t) : Within r s

/-- The texts of a statement, the conditions of its joins apart, are some of these. -/
def TextsIn (texts : List String) (s : Select) : Prop :=
  ∀ e ∈ s.exprs, e.TextsIn texts

theorem textsIn_iff {texts : List String} {s : Select} :
    s.TextsIn texts ↔ (∀ i ∈ s.items, i.expr.TextsIn texts) ∧
      (∀ e ∈ s.condition, e.TextsIn texts) ∧ (∀ e ∈ s.groupBy, e.TextsIn texts) ∧
      (∀ e ∈ s.having, e.TextsIn texts) ∧ ∀ o ∈ s.orderBy, o.expr.TextsIn texts := by
  simp only [TextsIn, exprs, List.forall_mem_append, List.forall_mem_map, Option.mem_toList,
    Option.mem_def, and_assoc]

end Sql.Select

namespace Plan

variable {p : Plan} {vs vs' : List Operand}

/-- The texts of the columns a plan reads. -/
def columnTexts (p : Plan) : List String :=
  p.dimensions.map (·.sql) ++ p.metrics.map (·.sql) ++ p.nestBy.map (·.sql) ++
    p.rowColumns.map (·.2)

/-- The texts of the statement that reads the table. -/
def tableTexts (p : Plan) : List String :=
  fixedTexts ++ p.columnTexts

/-- The texts of the outermost statement: of two passes it reads no column of the table. -/
def outerTexts (p : Plan) : List String :=
  if p.nested then fixedTexts else p.tableTexts

theorem mem_tableTexts {sql : String} : sql ∈ p.tableTexts ↔ sql ∈ fixedTexts ∨
    (∃ g ∈ p.dimensions, g.sql = sql) ∨ (∃ s ∈ p.metrics, s.sql = sql) ∨
      (∃ g ∈ p.nestBy, g.sql = sql) ∨ ∃ e ∈ p.rowColumns, e.2 = sql := by
  simp only [tableTexts, columnTexts, List.mem_append, List.mem_map, or_assoc]

theorem fixedTexts_subset_outerTexts (p : Plan) : fixedTexts ⊆ p.outerTexts := by
  unfold outerTexts
  split
  · exact List.Subset.refl _
  · exact List.subset_append_left _ _

theorem composes_aggregate {P : Expr → Prop} (hP : Expr.Composes P) {e : Expr} (he : P e)
    (a : Option Aggregation) : P (aggregate a e) := by
  cases a with
  | none => exact he
  | some a => cases a <;> exact hP.call _ _ (List.forall_mem_singleton.2 he)

theorem composes_condition {P : Expr → Prop} (hP : Expr.Composes P)
    {column : Predicate → Except CompileError Expr} (hcolumn : ∀ t e, column t = .ok e → P e)
    {f? : Option Filter} {e? : Option Expr}
    (h : (p.condition column f?).run vs = .ok (e?, vs')) : ∀ e ∈ e?, P e := by
  cases f? with
  | none =>
    cases h
    exact fun e he => by cases he
  | some f => exact Condition.composes_ofFilter hP hcolumn h

theorem textsIn_metric {s : Metric} (hs : s ∈ p.metrics) : (Expr.raw s.sql).TextsIn p.tableTexts :=
  Expr.textsIn_raw (mem_tableTexts.2 (.inr (.inr (.inl ⟨s, hs, rfl⟩))))

theorem textsIn_grouping {g : Grouping} (hg : g ∈ p.dimensions ++ p.nestBy) :
    (Expr.raw g.sql).TextsIn p.tableTexts := by
  refine Expr.textsIn_raw (mem_tableTexts.2 (.inr ?_))
  rcases List.mem_append.1 hg with hg | hg
  · exact .inl ⟨g, hg, rfl⟩
  · exact .inr (.inr (.inl ⟨g, hg, rfl⟩))

/-! ## The outermost statement -/

/-- What the outermost statement reads has a property: texts of the model, or in two passes the
columns of the inner statement. -/
structure Supplies (p : Plan) (P : Expr → Prop) : Prop where
  composes : Expr.Composes P
  flat : p.nested = false →
    (∀ g ∈ p.dimensions, P (.raw g.sql)) ∧ ∀ s ∈ p.metrics, P (.raw s.sql)
  nested : p.nested = true → ∀ i ∈ p.dimensions.map groupingItem ++ p.metrics.flatMap p.partials,
    ∀ label ∈ i.label, P (p.inner label)

namespace Supplies

variable {P : Expr → Prop}

theorem dimensionExpr (h : p.Supplies P) {g : Grouping} (hg : g ∈ p.dimensions) :
    P (p.dimensionExpr g) := by
  unfold Plan.dimensionExpr
  split
  · rename_i hnested
    exact h.nested hnested (groupingItem g)
      (List.mem_append_left _ (List.mem_map_of_mem hg)) g.label rfl
  · rename_i hflat
    exact (h.flat (by simpa using hflat)).1 g hg

theorem metricExpr (h : p.Supplies P) {s : Metric} (hs : s ∈ p.metrics) :
    P (p.metricExpr s) := by
  unfold Plan.metricExpr
  split
  · rename_i hflat
    exact composes_aggregate h.composes ((h.flat (by simpa using hflat)).2 s hs) _
  · rename_i hnested
    have hpart : ∀ i ∈ p.partials s, ∀ label ∈ i.label, P (p.inner label) := fun i hi =>
      h.nested (by simpa using hnested) i (List.mem_append_right _ (List.mem_flatMap.2 ⟨s, hs, hi⟩))
    unfold partials at hpart
    split
    · rename_i htwo
      rw [if_pos htwo] at hpart
      exact composes_aggregate h.composes (hpart _ List.mem_cons_self _ rfl) _
    · rename_i hone
      rw [if_neg hone] at hpart
      -- all but an average are selected whole
      have hwhole : s.aggregation ≠ some .avg → P (p.inner s.label) := by
        intro havg
        split at hpart
        · contradiction
        · exact hpart _ List.mem_cons_self _ rfl
      split
      · rename_i hcount
        exact h.composes.function _ (hwhole (by simp [hcount]))
      · rename_i havg
        rw [havg] at hpart
        have hsum := h.composes.function "SUM" (hpart _ List.mem_cons_self _ rfl)
        have hcount := h.composes.function "SUM"
          (hpart _ (List.mem_cons_of_mem _ List.mem_cons_self) _ rfl)
        have hscale : P (.raw "1.0") := h.composes.fixed (by decide)
        exact h.composes.binary (h.composes.binary hsum .mul hscale) .div hcount
      · rename_i havg
        exact composes_aggregate h.composes (hwhole havg) _

theorem outputExpr (h : p.Supplies P) {o : Output} (ho : o ∈ p.outputs) :
    P (p.outputExpr o) := by
  unfold Plan.outputExpr
  split
  · rename_i g hg
    refine h.dimensionExpr (List.mem_filterMap.2 ⟨o, ho, ?_⟩)
    rw [hg]
  · rename_i s hs
    refine h.metricExpr (List.mem_append_left _ (List.mem_filterMap.2 ⟨o, ho, ?_⟩))
    rw [hs]

theorem groupColumn (h : p.Supplies P) {t : Predicate} {e : Expr} (he : p.groupColumn t = .ok e) :
    P e := by
  unfold Plan.groupColumn at he
  split at he
  · rename_i s hs
    cases he
    exact h.metricExpr (List.mem_of_find?_eq_some hs)
  · split at he
    · rename_i o ho
      cases he
      obtain ⟨d, -, ho⟩ := Option.bind_eq_some_iff.1 ho
      exact h.outputExpr (List.mem_of_find?_eq_some ho)
    · cases he

/-- What is grouped by, selected and tested of the groups. -/
theorem rows (h : p.Supplies P) {s : Select} (hrows : p.rows.run vs = .ok (s, vs')) :
    (∀ e ∈ s.groupBy, P e) ∧ (∀ i ∈ s.items, P i.expr) ∧ ∀ e ∈ s.having, P e := by
  obtain ⟨base, _, hbase, hrows⟩ := run_bind_ok hrows
  obtain ⟨having, _, hhaving, hrows⟩ := run_bind_ok hrows
  obtain ⟨condition, rfl⟩ := base_run hbase
  cases hrows
  have hitems : ∀ i ∈ p.outputItems, P i.expr := List.forall_mem_map.2 fun _ => h.outputExpr
  have hhaving := composes_condition h.composes (fun t e => h.groupColumn) hhaving
  unfold grouped
  split
  · rename_i hnested
    refine ⟨List.forall_mem_map.2 fun g hg => ?_, hitems, hhaving⟩
    exact h.nested hnested (groupingItem g)
      (List.mem_append_left _ (List.mem_map_of_mem hg)) g.label rfl
  · rename_i hflat
    split
    · exact ⟨List.forall_mem_map.2 (h.flat (by simpa using hflat)).1, hitems, hhaving⟩
    · exact ⟨fun e he => (List.not_mem_nil he).elim, hitems, hhaving⟩

end Supplies

theorem outerTexts_of_flat (h : p.nested = false) : p.outerTexts = p.tableTexts :=
  if_neg (by simp [h])

theorem supplies_textsIn (p : Plan) : p.Supplies (Expr.TextsIn p.outerTexts) where
  composes := Expr.composes_textsIn (fixedTexts_subset_outerTexts p)
  flat hflat := by
    rw [outerTexts_of_flat hflat]
    exact ⟨fun g hg => textsIn_grouping (List.mem_append_left _ hg), fun s => textsIn_metric⟩
  nested _ _ _ _ _ := Expr.textsIn_column _ _

theorem textsIn_orderOf {k : SortKey} {o : Order} (h : p.orderOf k = .ok o) :
    o.expr.TextsIn p.outerTexts := by
  unfold orderOf at h
  split at h
  · rename_i found hfound
    cases h
    dsimp only
    split
    · exact Expr.textsIn_column _ _
    · exact (supplies_textsIn p).outputExpr (List.mem_of_find?_eq_some hfound)
  · split at h <;> cases h

/-! ## The statement that reads the table -/

theorem textsIn_rowColumn {t : Predicate} {e : Expr} (h : p.rowColumn t = .ok e) :
    e.TextsIn p.tableTexts := by
  unfold rowColumn at h
  split at h
  · rename_i sql hsql
    cases h
    obtain ⟨before, after, hcolumns, -⟩ := List.lookup_eq_some_iff.1 hsql
    refine Expr.textsIn_raw (mem_tableTexts.2 (.inr (.inr (.inr (.inr ⟨(t.column, sql), ?_, rfl⟩)))))
    rw [hcolumns]
    exact List.mem_append_right _ List.mem_cons_self
  · cases h

/-- A statement that reads the table and its joins. -/
structure ReadsTable (p : Plan) (s : Select) : Prop where
  source : s.source = some (sourceOf p.root p.rootAlias)
  joins : s.joins = p.joins.map joinedOf
  texts : s.TextsIn p.tableTexts

/-- A statement that reads another statement, and no text of the model. -/
structure ReadsQuery (s t : Select) : Prop where
  source : ∃ label, s.source = some ⟨.query t, label⟩
  joins : s.joins = []
  texts : s.TextsIn fixedTexts

theorem base_texts {s : Select} (h : p.base.run vs = .ok (s, vs')) :
    ∃ condition, s = { source := some (sourceOf p.root p.rootAlias)
                       joins := p.joins.map joinedOf
                       condition } ∧ ∀ e ∈ condition, e.TextsIn p.tableTexts := by
  obtain ⟨condition, _, hcondition, h⟩ := run_bind_ok h
  cases h
  exact ⟨condition, rfl, composes_condition (Expr.composes_textsIn (List.subset_append_left _ _))
    (fun t e => textsIn_rowColumn) hcondition⟩

theorem textsIn_partials {s : Metric} (hs : s ∈ p.metrics) :
    ∀ i ∈ p.partials s, i.expr.TextsIn p.tableTexts := by
  have hvalue := fun a => composes_aggregate
    (Expr.composes_textsIn (List.subset_append_left fixedTexts p.columnTexts)) (textsIn_metric hs) a
  intro i hi
  unfold partials at hi
  split at hi
  · rw [List.mem_singleton.1 hi]
    exact textsIn_metric hs
  · split at hi
    · rcases List.mem_cons.1 hi with rfl | hi
      · exact hvalue (some .sum)
      · rw [List.mem_singleton.1 hi]
        exact hvalue (some .count)
    · rw [List.mem_singleton.1 hi]
      exact hvalue _

/-- The inner statement of two passes reads the table. -/
theorem readsTable_innerSelect {s : Select} (h : p.base.run vs = .ok (s, vs')) :
    p.ReadsTable (p.innerSelect s) := by
  obtain ⟨condition, rfl, hcondition⟩ := base_texts h
  refine ⟨rfl, rfl, Select.textsIn_iff.2 ⟨?_, hcondition, ?_, by simp [innerSelect],
    by simp [innerSelect]⟩⟩
  · refine List.forall_mem_append.2 ⟨List.forall_mem_map.2 fun g => textsIn_grouping, fun i hi => ?_⟩
    obtain ⟨s, hs, hi⟩ := List.mem_flatMap.1 hi
    exact textsIn_partials hs i hi
  · exact List.forall_mem_map.2 fun g => textsIn_grouping

/-! ## Whole statements -/

/-- The statement reads the table, or it reads one that does. -/
structure Outermost (p : Plan) (s : Select) : Prop where
  texts : s.TextsIn p.outerTexts
  reads : p.nested = false ∧ s.source = some (sourceOf p.root p.rootAlias) ∧
      s.joins = p.joins.map joinedOf ∨
    p.nested = true ∧ s.joins = [] ∧
      ∃ t label, p.ReadsTable t ∧ s.source = some ⟨.query t, label⟩

theorem outermost_rows {s : Select} (h : p.rows.run vs = .ok (s, vs')) : p.Outermost s := by
  obtain ⟨hgroupBy, hitems, hhaving⟩ := (supplies_textsIn p).rows h
  obtain ⟨base, having, _, hbase, -, rfl⟩ := rows_run h
  cases hnested : p.nested with
  | true =>
    have hinner := readsTable_innerSelect hbase
    rw [grouped, if_pos hnested] at hgroupBy hitems ⊢
    exact ⟨Select.textsIn_iff.2 ⟨hitems, by simp, hgroupBy, hhaving, by simp⟩,
      .inr ⟨hnested, rfl, _, _, hinner, rfl⟩⟩
  | false =>
    have hflat : ¬ p.nested = true := by simp [hnested]
    obtain ⟨condition, rfl, hcondition⟩ := base_texts hbase
    rw [grouped, if_neg hflat] at hgroupBy hitems ⊢
    rw [← outerTexts_of_flat hnested] at hcondition
    split at hgroupBy
    · rename_i hagg
      rw [if_pos hagg] at hitems ⊢
      exact ⟨Select.textsIn_iff.2 ⟨hitems, hcondition, hgroupBy, hhaving, by simp⟩,
        .inl ⟨hnested, rfl, rfl⟩⟩
    · rename_i hagg
      rw [if_neg hagg] at hitems ⊢
      exact ⟨Select.textsIn_iff.2 ⟨hitems, hcondition, hgroupBy, hhaving, by simp⟩,
        .inl ⟨hnested, rfl, rfl⟩⟩

theorem outermost_main {s : Select} (h : p.main.run vs = .ok (s, vs')) : p.Outermost s := by
  obtain ⟨rows, orderBy, _, hrows, horder, rfl⟩ := main_run h
  obtain ⟨htexts, hreads⟩ := outermost_rows hrows
  obtain ⟨hitems, hcondition, hgroupBy, hhaving, -⟩ := Select.textsIn_iff.1 htexts
  refine ⟨Select.textsIn_iff.2 ⟨hitems, hcondition, hgroupBy, hhaving, fun o ho => ?_⟩, hreads⟩
  obtain ⟨k, -, ho⟩ := exists_beside horder.flip ho
  exact textsIn_orderOf ho

/-- Every statement inside reads the table or another statement, and the innermost the table. -/
def Layered (p : Plan) (s : Select) : Prop :=
  (∀ r, r.Within s → p.ReadsTable r ∨ ∃ t, ReadsQuery r t) ∧ ∃ r, r.Within s ∧ p.ReadsTable r

theorem ReadsTable.layered {s : Select} (h : p.ReadsTable s) : p.Layered s := by
  refine ⟨fun r hr => ?_, s, .here, h⟩
  cases hr with
  | here => exact .inl h
  | source hsource _ =>
    -- the source of such a statement is no statement
    have hquery := h.source.symm.trans hsource
    unfold sourceOf at hquery
    cases htable : p.root.source <;> rw [htable] at hquery <;> cases hquery

theorem ReadsQuery.layered {s t : Select} (h : ReadsQuery s t) (ht : p.Layered t) :
    p.Layered s := by
  obtain ⟨label, hsource⟩ := h.source
  obtain ⟨hall, r, hr, htable⟩ := ht
  refine ⟨fun r hr => ?_, r, .source hsource hr, htable⟩
  cases hr with
  | here => exact .inr ⟨t, h⟩
  | source hsource' hr =>
    cases hsource.symm.trans hsource'
    exact hall r hr

theorem Outermost.layered {s : Select} (h : p.Outermost s) : p.Layered s := by
  obtain ⟨htexts, ⟨hflat, hsource, hjoins⟩ | ⟨hnested, hjoins, t, label, ht, hsource⟩⟩ := h
  · rw [outerTexts_of_flat hflat] at htexts
    exact ReadsTable.layered ⟨hsource, hjoins, htexts⟩
  · rw [outerTexts, if_pos hnested] at htexts
    exact ReadsQuery.layered ⟨⟨label, hsource⟩, hjoins, htexts⟩ ht.layered

theorem layered_main {s : Select} (h : p.main.run vs = .ok (s, vs')) : p.Layered s :=
  (outermost_main h).layered

theorem layered_countSelect {s : Select} (h : p.countSelect.run vs = .ok (s, vs')) :
    p.Layered s := by
  unfold countSelect at h
  split at h
  · obtain ⟨base, _, hbase, h⟩ := run_bind_ok h
    cases h
    obtain ⟨condition, rfl, hcondition⟩ := base_texts hbase
    refine ReadsTable.layered ⟨rfl, rfl, Select.textsIn_iff.2 ⟨?_, hcondition, by simp, by simp,
      by simp⟩⟩
    refine List.forall_mem_singleton.2 ?_
    have hgroups : ∀ e ∈ p.dimensions.map fun g => Expr.raw g.sql, e.TextsIn p.tableTexts :=
      List.forall_mem_map.2 fun g hg => textsIn_grouping (List.mem_append_left _ hg)
    unfold labelled distinctCount
    dsimp only
    split
    · exact Expr.textsIn_call _ _ (List.forall_mem_singleton.2 (Expr.textsIn_tuple hgroups))
    · exact Expr.textsIn_call _ _ hgroups
  · obtain ⟨rows, _, hrows, h⟩ := run_bind_ok h
    cases h
    refine ReadsQuery.layered ⟨⟨_, rfl⟩, rfl, Select.textsIn_iff.2 ⟨?_, by simp, by simp, by simp,
      by simp⟩⟩ (outermost_rows hrows).layered
    exact List.forall_mem_singleton.2 (Expr.textsIn_function _ Expr.textsIn_star)

end Plan

end Rollup
