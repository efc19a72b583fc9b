/-
Conditions that differ in the values of their operands alone. They are placed alike, or refused for
reasons of one kind, because the placement looks at columns, operators and kinds of operands only.
-/
import Rollup.Proofs.Filter.Related

namespace Rollup

/-- The same test with operands of the same kinds. -/
structure Predicate.Alike (p p' : Predicate) : Prop where
  column : p.column = p'.column
  op : p.op = p'.op
  values : List.Forall₂ Operand.SameKind p.values p'.values

namespace Filter

/-- Filters of one shape with like tests at the same places. -/
inductive Alike : Filter → Filter → Prop
  | and {a a' b b' : Filter} (ha : Alike a a') (hb : Alike b b') : Alike (.and a b) (.and a' b')
  | or {a a' b b' : Filter} (ha : Alike a a') (hb : Alike b b') : Alike (.or a b) (.or a' b')
  | not {f f' : Filter} (h : Alike f f') : Alike (.not f) (.not f')
  | test {p p' : Predicate} (h : p.Alike p') : Alike (.test p) (.test p')

theorem alike_iff_related {f f' : Filter} : Alike f f' ↔ Related Predicate.Alike f f' := by
  constructor
  · intro h
    induction h with
    | and _ _ iha ihb => exact .and iha ihb
    | or _ _ iha ihb => exact .or iha ihb
    | not _ ih => exact .not ih
    | test h => exact .test h
  · intro h
    induction h with
    | and _ _ iha ihb => exact .and iha ihb
    | or _ _ iha ihb => exact .or iha ihb
    | not _ ih => exact .not ih
    | test h => exact .test h

theorem alike_eq_related : Alike = Related Predicate.Alike := by
  funext f f'
  exact propext alike_iff_related

theorem isNone_alike {f? g? : Option Filter} (h : Option.Rel Alike f? g?) :
    f?.isNone = g?.isNone := by
  cases h <;> rfl

theorem Alike.predicates {f f' : Filter} (h : Alike f f') :
    List.Forall₂ Predicate.Alike f.predicates f'.predicates :=
  (alike_iff_related.1 h).predicates

theorem alike_toList {f? g? : Option Filter} (h : Option.Rel Alike f? g?) :
    List.Forall₂ Alike f?.toList g?.toList := by
  rw [alike_eq_related] at h ⊢
  exact related_toList h

end Filter

/-- The same query but for the values of the operands in its filters. -/
structure Query.Alike (q q' : Query) : Prop where
  table : q.table = q'.table
  arguments : q.arguments = q'.arguments
  projections : q.projections = q'.projections
  whereFilter : Option.Rel Filter.Alike q.whereFilter q'.whereFilter
  havingFilter : Option.Rel Filter.Alike q.havingFilter q'.havingFilter
  sorting : q.sorting = q'.sorting
  pagination : q.pagination = q'.pagination
  bypassCache : q.bypassCache = q'.bypassCache

/-- A query with other filters. -/
def Query.filtered (q : Query) (rows groups : Option Filter) : Query :=
  { q with whereFilter := rows, havingFilter := groups }

theorem Query.Alike.eq_filtered {q q' : Query} (h : q.Alike q') :
    q' = q.filtered q'.whereFilter q'.havingFilter := by
  obtain ⟨htable, harguments, hprojections, -, -, hsorting, hpagination, hbypass⟩ := h
  cases q'
  rw [Query.filtered, Query.mk.injEq]
  exact ⟨htable.symm, harguments.symm, hprojections.symm, rfl, rfl, hsorting.symm,
    hpagination.symm, hbypass.symm⟩

namespace Placement

/-- The same placement but for the values of the operands. -/
structure Alike (p p' : Placement) : Prop where
  rows : Option.Rel Filter.Alike p.rows p'.rows
  groups : Option.Rel Filter.Alike p.groups p'.groups

section

variable {m : Model} {q : Query} {root : m.Member} {w h : Option Filter}

theorem contains_null_eq {vs ws : List Operand} (hvalues : List.Forall₂ Operand.SameKind vs ws) :
    vs.contains .null = ws.contains .null := by
  induction hvalues with
  | nil => rfl
  | cons hfirst _ ih =>
    rw [List.contains_cons, List.contains_cons, ih]
    cases hfirst <;> rfl

theorem all_isText_eq {vs ws : List Operand} (hvalues : List.Forall₂ Operand.SameKind vs ws) :
    vs.all Operand.isText = ws.all Operand.isText := by
  induction hvalues with
  | nil => rfl
  | cons hfirst _ ih => rw [List.all_cons, List.all_cons, hfirst.isText_eq, ih]

/-- Which column a test is about does not matter to its operator. -/
theorem checkOperator_alike {p p' : Predicate} (hop : p.op = p'.op)
    (hvalues : List.Forall₂ Operand.SameKind p.values p'.values) (c : Column) :
    Agree (· = ·) (checkOperator p c) (checkOperator p' c) := by
  obtain ⟨column, op, vs⟩ := p
  obtain ⟨column', op', ws⟩ := p'
  subst hop
  unfold checkOperator
  dsimp only at hvalues ⊢
  -- of the operands only these three are looked at
  rw [← hvalues.length_eq, ← contains_null_eq hvalues, ← all_isText_eq hvalues]
  split
  · exact rfl
  · split
    · split
      · exact rfl
      · split
        · exact rfl
        · split
          · exact rfl
          · exact rfl
    · split
      · exact rfl
      · split
        · exact rfl
        · exact rfl

theorem checkRawMetric_alike {p p' : Predicate} (hp : p.Alike p') :
    Agree (· = ·) (checkRawMetric q root p) (checkRawMetric (q.filtered w h) root p') := by
  unfold checkRawMetric
  rw [← hp.column]
  refine agree_bind fun f => ?_
  split
  · exact agree_throw rfl
  · rfl

theorem place_alike {p p' : Predicate} (hp : p.Alike p') (origin : Clause) :
    Agree (· = ·) (place q root origin p) (place (q.filtered w h) root origin p') := by
  have hmetric : ∀ c, (q.filtered w h).metricProjection? c = q.metricProjection? c := fun c => rfl
  have hgrouping : ∀ c, (q.filtered w h).groupingProjection? c = q.groupingProjection? c :=
    fun c => rfl
  unfold place
  rw [hmetric, hgrouping, ← hp.column]
  refine agree_bind fun found => ?_
  dsimp only
  split
  · split
    · rfl
    · exact (checkRawMetric_alike hp).bind fun _ _ _ => rfl
  · split
    · exact agree_throw rfl
    · rfl

theorem checkPromotable_alike {p p' : Predicate} (hp : p.Alike p') :
    Agree (· = ·) (checkPromotable q root p) (checkPromotable (q.filtered w h) root p') := by
  have hgrouping : ∀ c, (q.filtered w h).groupingProjection? c = q.groupingProjection? c :=
    fun c => rfl
  unfold checkPromotable
  rw [hgrouping, ← hp.column]
  refine agree_bind fun found => ?_
  dsimp only
  split
  · exact rfl
  · split
    · exact rfl
    · exact rfl

theorem treatsAlike_filtered : TreatsAlike Predicate.Alike q (q.filtered w h) root := by
  refine ⟨fun hp => ?_, fun origin hp => place_alike hp origin, checkPromotable_alike,
    fun hp => ?_⟩
  · rw [← hp.column]
    exact agree_bind fun found => checkOperator_alike hp.op hp.values found.2
  · rw [← hp.column]
    refine agree_bind fun found => ?_
    dsimp only
    split
    · exact checkRawMetric_alike hp
    · rfl

/-- Alike conditions are placed alike: only columns, operators and kinds of operands are looked
at. -/
theorem of_alike {q q' : Query} (hq : q.Alike q') :
    Agree Alike (of m q) (of m q') := by
  obtain ⟨w, h, rfl⟩ : ∃ w h, q' = q.filtered w h := ⟨_, _, hq.eq_filtered⟩
  obtain ⟨-, -, -, hwhere, hhaving, -, -, -⟩ := hq
  rw [Filter.alike_eq_related] at hwhere hhaving
  refine Agree.imp (of_related rfl rfl hwhere hhaving fun root _ => treatsAlike_filtered) ?_
  rintro p p' ⟨hrows, hgroups⟩
  rw [← Filter.alike_eq_related] at hrows hgroups
  exact ⟨hrows, hgroups⟩

end

end Placement

end Rollup
