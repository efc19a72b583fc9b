/-
Operands do not reach the text. Queries that differ in the values of their operands alone, not in
their number or kind, are refused for reasons of one kind, or compile to the same statements with
different parameters: plans differ in their conditions alone, and conditions bind the values they
come to without looking at them.
-/
import Rollup.Compile.Assembly
import Rollup.Proofs.Compile.Plan
import Rollup.Proofs.Filter.Alike
import Rollup.Proofs.Filter.Placement

namespace Rollup

open Sql

/-- The same text, and as many parameters of the same kinds. -/
structure Statement.Alike (s s' : Statement) : Prop where
  sql : s.sql = s'.sql
  params : List.Forall₂ Operand.SameKind s.params s'.params

/-- The same but for the values of the parameters. -/
structure Compiled.Alike (c c' : Compiled) : Prop where
  main : c.main.Alike c'.main
  count : Option.Rel Statement.Alike c.count c'.count
  nested : c.nested = c'.nested
  dialect : c.dialect = c'.dialect
  dataSource : c.dataSource = c'.dataSource
  columns : c.columns = c'.columns

/-! ## Conditions -/

namespace Condition

variable {d : Dialect}

theorem bind_alike {v w : Operand} (h : v.SameKind w) : AgreeBinding (· = ·) (bind v) (bind w) := by
  intro ps qs hvalues
  have hnext : List.Forall₂ Operand.SameKind (ps ++ [v]) (qs ++ [w]) :=
    List.rel_append hvalues (.cons h .nil)
  exact ⟨congrArg Expr.param hnext.length_eq, hnext⟩

theorem member_alike (case : LetterCase) {v w : Operand} (h : v.SameKind w) :
    (member case v).SameKind (member case w) := by
  cases case with
  | sensitive => exact h
  | insensitive => exact .text _ _

theorem getD_alike {vs ws : List Operand} (h : List.Forall₂ Operand.SameKind vs ws) (i : Nat) :
    (vs.getD i .null).SameKind (ws.getD i .null) := by
  induction h generalizing i with
  | nil => exact .null
  | cons hfirst _ ih =>
    cases i with
    | zero => exact hfirst
    | succ i => exact ih i

theorem offered_alike (op : Operator) (e? : Option Expr) :
    AgreeBinding (· = ·) (offered d op e?) (offered d op e?) := by
  cases e? with
  | none => exact .throw rfl
  | some e => exact .pure rfl

/-- The test is the same; only its operands are bound to other values. -/
theorem ofPredicate_alike {t t' : Predicate} (ht : t.Alike t') (e : Expr) :
    AgreeBinding (· = ·) (ofPredicate d e t) (ofPredicate d e t') := by
  obtain ⟨column, op, vs⟩ := t
  obtain ⟨column', op', ws⟩ := t'
  obtain ⟨rfl, rfl, hvalues⟩ := ht
  have hoperand := fun i => bind_alike (getD_alike hvalues i)
  unfold ofPredicate
  dsimp only
  cases op with
  | compare c =>
    refine (hoperand 0).bind ?_
    rintro a _ rfl
    exact .pure rfl
  | oneOf negated case =>
    refine (AgreeBinding.mapM (hvalues.imp fun v w hv => bind_alike (member_alike case hv))).bind ?_
    intro as bs hab
    rw [List.forall₂_eq_eq_eq] at hab
    exact .pure (by rw [hab])
  | between negated =>
    refine (hoperand 0).bind ?_
    rintro low _ rfl
    refine (hoperand 1).bind ?_
    rintro high _ rfl
    exact .pure rfl
  | find anchor case =>
    refine (bind_alike (.text _ _)).bind ?_
    rintro a _ rfl
    exact .pure rfl
  | isNull negated => exact .pure rfl
  | isEmpty negated =>
    refine (offered_alike _ _).bind ?_
    rintro a _ rfl
    exact .pure rfl
  | hasMember negated =>
    refine (hoperand 0).bind ?_
    rintro value _ rfl
    refine (offered_alike _ _).bind ?_
    rintro a _ rfl
    exact .pure rfl

variable {column column' : Predicate → Except CompileError Expr}

theorem operands_alike {f f' : Filter} (hf : f.Alike f')
    (hcolumn : ∀ {t t' : Predicate}, t.Alike t' → Agree (· = ·) (column t) (column' t'))
    (ands : Bool) :
    AgreeBinding (· = ·) (operands d column ands f) (operands d column' ands f') := by
  induction hf generalizing ands with
  | and _ _ iha ihb =>
    refine (iha true).bind ?_
    rintro left _ rfl
    refine (ihb true).bind ?_
    rintro right _ rfl
    exact .pure rfl
  | or _ _ iha ihb =>
    refine (iha false).bind ?_
    rintro left _ rfl
    refine (ihb false).bind ?_
    rintro right _ rfl
    exact .pure rfl
  | not _ ih =>
    refine (ih false).bind ?_
    rintro inner _ rfl
    exact .pure rfl
  | test ht =>
    refine (AgreeBinding.lift (hcolumn ht)).bind ?_
    rintro e _ rfl
    refine (ofPredicate_alike ht e).bind ?_
    rintro test _ rfl
    exact .pure rfl

theorem ofFilter_alike {f f' : Filter} (hf : f.Alike f')
    (hcolumn : ∀ {t t' : Predicate}, t.Alike t' → Agree (· = ·) (column t) (column' t')) :
    AgreeBinding (· = ·) (ofFilter d column f) (ofFilter d column' f') := by
  refine (operands_alike hf hcolumn false).bind ?_
  rintro es _ rfl
  exact .pure rfl

end Condition

/-! ## Plans -/

namespace Plan

section

variable {m : Model} {mode : Mode} {scope : Scope m}

/-- Of the predicates on groups only the columns are looked at. -/
theorem hiddenOf_alike {ts ts' : List Predicate} (h : List.Forall₂ Predicate.Alike ts ts')
    (known : List Metric) : hiddenOf mode scope known ts = hiddenOf mode scope known ts' := by
  induction h generalizing known with
  | nil => rfl
  | cons ht _ ih =>
    rw [hiddenOf, hiddenOf, ← ht.column]
    simp only [ih]

/-- Of the predicates on rows only the columns are looked at. -/
theorem rowColumnsOf_alike {ts ts' : List Predicate} (h : List.Forall₂ Predicate.Alike ts ts')
    (known : List (Path × String)) :
    rowColumnsOf mode scope known ts = rowColumnsOf mode scope known ts' := by
  induction h generalizing known with
  | nil => rfl
  | cons ht _ ih =>
    rw [rowColumnsOf, rowColumnsOf, ← ht.column]
    simp only [ih]

theorem nestByOf_filtered (q : Query) (w h : Option Filter) (known : List Grouping)
    (paths : List Path) :
    nestByOf mode scope (q.filtered w h) known paths = nestByOf mode scope q known paths := by
  have hdimensions : (q.filtered w h).dimensions = q.dimensions := rfl
  induction paths generalizing known with
  | nil => rfl
  | cons p rest ih =>
    rw [nestByOf, nestByOf, hdimensions]
    simp only [ih]

theorem collect_filtered (q : Query) (w h : Option Filter) (known : List Grouping)
    (metrics : List Metric) :
    nestingOf.collect mode scope (q.filtered w h) known metrics =
      nestingOf.collect mode scope q known metrics := by
  induction metrics generalizing known with
  | nil => rfl
  | cons s rest ih =>
    rw [nestingOf.collect, nestingOf.collect]
    simp only [ih, nestByOf_filtered]

theorem nestingOf_filtered (q : Query) (w h : Option Filter) (metrics : List Metric) :
    nestingOf mode scope (q.filtered w h) metrics = nestingOf mode scope q metrics := by
  rw [nestingOf, nestingOf, collect_filtered]

/-- The same plan with other conditions. -/
def placed (p : Plan) (w h : Option Filter) (filters : Placement) : Plan :=
  { p with query := p.query.filtered w h, filters }

theorem predicates_alike {f? g? : Option Filter} (h : Option.Rel Filter.Alike f? g?) :
    List.Forall₂ Predicate.Alike (f?.toList.flatMap Filter.predicates)
      (g?.toList.flatMap Filter.predicates) :=
  List.rel_flatMap (Filter.alike_toList h) fun _ _ hf => hf.predicates

/-- The conditions are only kept. -/
theorem draft_alike {d : Dialect} {q : Query} {w h : Option Filter} {root : m.Member}
    {f f' : Placement} (hf : f.Alike f') :
    draft d (q.filtered w h) root f' =
      (do let r ← draft d q root f; return (r.1.placed w h f', r.2)) := by
  unfold draft
  simp only [nestingOf_filtered, ← hiddenOf_alike (predicates_alike hf.groups),
    ← rowColumnsOf_alike (predicates_alike hf.rows), bind_assoc, pure_bind]
  rfl

end

/-! ## Statements -/

section

variable {p : Plan} {w h : Option Filter} {f : Placement}

theorem rowColumn_alike {t t' : Predicate} (ht : t.Alike t') :
    Agree (· = ·) (p.rowColumn t) ((p.placed w h f).rowColumn t') := by
  have hcolumns : (p.placed w h f).rowColumns = p.rowColumns := rfl
  unfold rowColumn
  rw [hcolumns, ← ht.column]
  split
  · rfl
  · exact agree_throw rfl

theorem groupColumn_alike {t t' : Predicate} (ht : t.Alike t') :
    Agree (· = ·) (p.groupColumn t) ((p.placed w h f).groupColumn t') := by
  have hmetrics : (p.placed w h f).metrics = p.metrics := rfl
  have hgrouping : ∀ c, (p.placed w h f).query.groupingProjection? c =
      p.query.groupingProjection? c := fun c => rfl
  have hnamed : (p.placed w h f).outputNamed? = p.outputNamed? := rfl
  unfold groupColumn
  rw [hmetrics, hgrouping, hnamed, ← ht.column]
  split
  · rfl
  · split
    · rfl
    · exact agree_throw rfl

theorem condition_alike {column column' : Predicate → Except CompileError Expr}
    {f? g? : Option Filter} (hf : Option.Rel Filter.Alike f? g?)
    (hcolumn : ∀ {t t' : Predicate}, t.Alike t' → Agree (· = ·) (column t) (column' t')) :
    AgreeBinding (· = ·) (p.condition column f?) ((p.placed w h f).condition column' g?) := by
  cases hf with
  | none => exact .pure rfl
  | some hf => exact Condition.ofFilter_alike hf hcolumn

theorem base_alike (hf : p.filters.Alike f) :
    AgreeBinding (· = ·) p.base (p.placed w h f).base := by
  refine (condition_alike hf.rows rowColumn_alike).bind ?_
  rintro e? _ rfl
  exact .pure rfl

theorem rows_alike (hf : p.filters.Alike f) :
    AgreeBinding (· = ·) p.rows (p.placed w h f).rows := by
  refine (base_alike hf).bind ?_
  rintro base _ rfl
  refine (condition_alike hf.groups groupColumn_alike).bind ?_
  rintro having _ rfl
  exact .pure rfl

theorem main_alike (hf : p.filters.Alike f) :
    AgreeBinding (· = ·) p.main (p.placed w h f).main := by
  refine (rows_alike hf).bind ?_
  rintro rows _ rfl
  have horders : AgreeBinding (List.Forall₂ (· = ·))
      (p.query.sorting.mapM fun k => (liftM (p.orderOf k) : Binding Order))
      ((p.placed w h f).query.sorting.mapM fun k =>
        (liftM ((p.placed w h f).orderOf k) : Binding Order)) :=
    .mapM (List.forall₂_same.2 fun k _ => .lift (agree_refl _))
  refine horders.bind ?_
  intro orders orders' heq
  rw [List.forall₂_eq_eq_eq] at heq
  exact .pure (by rw [heq]; rfl)

theorem countSelect_alike (hf : p.filters.Alike f) :
    AgreeBinding (· = ·) p.countSelect (p.placed w h f).countSelect := by
  have hdirect : (p.placed w h f).countsDirectly = p.countsDirectly := by
    rw [countsDirectly, countsDirectly, Filter.isNone_alike hf.groups]
    rfl
  unfold countSelect
  rw [hdirect]
  split
  · refine (base_alike hf).bind ?_
    rintro base _ rfl
    exact .pure rfl
  · refine (rows_alike hf).bind ?_
    rintro rows _ rfl
    exact .pure rfl

theorem statement_alike {d : Dialect} {x y : Binding Select} (hxy : AgreeBinding (· = ·) x y) :
    Agree Statement.Alike (statement d x) (statement d y) := by
  refine (hxy [] [] .nil).bind ?_
  rintro ⟨s, params⟩ ⟨s', params'⟩ ⟨hselect, hparams⟩
  exact ⟨congrArg (·.render d) hselect, hparams⟩

theorem compile_alike (hf : p.filters.Alike f) :
    Agree Compiled.Alike p.compile (p.placed w h f).compile := by
  have hwants : (p.placed w h f).wantsCount = p.wantsCount := rfl
  unfold compile
  rw [hwants]
  refine (statement_alike (main_alike hf)).bind fun main main' hmain => ?_
  dsimp only
  split
  · refine ((statement_alike (countSelect_alike hf)).map fun _ _ hcount =>
      Option.Rel.some hcount).bind fun count count' hcount => ?_
    exact ⟨hmain, hcount, rfl, rfl, rfl, rfl⟩
  · exact ⟨hmain, .none, rfl, rfl, rfl, rfl⟩

end

theorem build_alike {m : Model} {d : Dialect} {q q' : Query} (hq : q.Alike q') :
    Agree (fun p p' => ∃ w h f, p' = p.placed w h f ∧ p.filters.Alike f) (build m d q)
      (build m d q') := by
  obtain ⟨w, h, rfl⟩ : ∃ w h, q' = q.filtered w h := ⟨_, _, hq.eq_filtered⟩
  unfold build
  refine (Placement.of_alike hq).bind fun f f' hf => ?_
  refine agree_bind fun root => ?_
  rw [draft_alike hf, run'_bind_pure]
  cases hdraft : (draft d q root f).run' [] with
  | error e => rfl
  | ok r =>
    -- the joins are planned from the required paths, which are the same
    obtain ⟨-, hfilters⟩ := draft_ok hdraft
    refine agree_bind (x := JoinPlan.of ⟨d, false⟩ (Scope.of root q.arguments) r.2) fun joins => ?_
    exact ⟨w, h, f', rfl, hfilters ▸ hf⟩

end Plan

/-- Queries that differ in the values of operands alone both fail to compile, with errors of one
kind, or both compile, to the same but for the values of the parameters. No run ends in the kind
`endless`: it stands for planning that goes on for ever, here of both queries. When planning ends is
told in `Rollup.Proofs.Compile.Planning`. -/
theorem compile_noninterference {m : Model} {d : Dialect} {q q' : Query} (h : q.Alike q') :
    (∃ e e', compile m d q = .error e ∧ compile m d q' = .error e' ∧ e.kind = e'.kind) ∨
      ∃ c c', compile m d q = .ok c ∧ compile m d q' = .ok c' ∧ c.Alike c' := by
  refine Agree.cases ((Plan.build_alike h).bind ?_)
  rintro p _ ⟨w, h, f, rfl, hf⟩
  exact Plan.compile_alike hf

/-- Whatever ratings and score are asked for, be they pieces of SQL. -/
theorem compile_noninterference_bestScores :
    let q := Placement.bestScores (some (.test (Placement.rated ["A", "B"])))
      (some (.test (Placement.scoredOver 10)))
    let q' := Placement.bestScores (some (.test (Placement.rated ["?", "') OR 1 = 1 --"])))
      (some (.test (Placement.scoredOver (-1))))
    q.Alike q' ∧
    ((∃ e e', compile Placement.players .mysql q = .error e ∧
        compile Placement.players .mysql q' = .error e' ∧ e.kind = e'.kind) ∨
      ∃ c c', compile Placement.players .mysql q = .ok c ∧
        compile Placement.players .mysql q' = .ok c' ∧ c.Alike c') := by
  intro q q'
  have hrated : List.Forall₂ Operand.SameKind [.text "A", .text "B"]
      [.text "?", .text "') OR 1 = 1 --"] := .cons (.text _ _) (.cons (.text _ _) .nil)
  have h : q.Alike q' := {
    table := rfl
    arguments := rfl
    projections := rfl
    whereFilter := .some (.test ⟨rfl, rfl, hrated⟩)
    havingFilter := .some (.test ⟨rfl, rfl, .cons (.int _ _) .nil⟩)
    sorting := rfl
    pagination := rfl
    bypassCache := rfl }
  exact ⟨h, compile_noninterference h⟩

end Rollup
