/-
Filters of one shape whose predicates are related, one to one. They stay so when their `not`s are
pushed inwards and when they are cut into parts and put together again. Where related predicates
are treated alike one by one, by the checks of the operators and by those of the clauses, the
filters are placed alike: both are refused for reasons of one kind, or the placed conditions are
again of one shape with related predicates.
-/
import Rollup.Proofs.Agree
import Rollup.Proofs.Filter.Truth
import Rollup.Filter.Placement
import Mathlib.Data.Option.Basic

namespace Rollup

namespace Filter

/-- Filters of one shape with related tests at the same places. -/
inductive Related (R : Predicate → Predicate → Prop) : Filter → Filter → Prop
  | and {a a' b b' : Filter} (ha : Related R a a') (hb : Related R b b') :
    Related R (.and a b) (.and a' b')
  | or {a a' b b' : Filter} (ha : Related R a a') (hb : Related R b b') :
    Related R (.or a b) (.or a' b')
  | not {f f' : Filter} (h : Related R f f') : Related R (.not f) (.not f')
  | test {p p' : Predicate} (h : R p p') : Related R (.test p) (.test p')

section

variable {R S : Predicate → Predicate → Prop}

theorem Related.imp {f f' : Filter} (h : Related R f f')
    (hRS : ∀ p ∈ f.predicates, ∀ p' ∈ f'.predicates, R p p' → S p p') : Related S f f' := by
  induction h with
  | and _ _ iha ihb =>
    exact .and
      (iha fun p hp p' hp' => hRS p (List.mem_append_left _ hp) p' (List.mem_append_left _ hp'))
      (ihb fun p hp p' hp' => hRS p (List.mem_append_right _ hp) p' (List.mem_append_right _ hp'))
  | or _ _ iha ihb =>
    exact .or
      (iha fun p hp p' hp' => hRS p (List.mem_append_left _ hp) p' (List.mem_append_left _ hp'))
      (ihb fun p hp p' hp' => hRS p (List.mem_append_right _ hp) p' (List.mem_append_right _ hp'))
  | not _ ih => exact .not (ih hRS)
  | test h => exact .test (hRS _ List.mem_cons_self _ List.mem_cons_self h)

theorem Related.predicates {f f' : Filter} (h : Related R f f') :
    List.Forall₂ R f.predicates f'.predicates := by
  induction h with
  | and _ _ iha ihb => exact List.rel_append iha ihb
  | or _ _ iha ihb => exact List.rel_append iha ihb
  | not _ ih => exact ih
  | test h => exact .cons h .nil

theorem Related.pushNot_negated {f f' : Filter} (h : Related R f f') :
    Related R f.pushNot f'.pushNot ∧ Related R f.negated f'.negated := by
  induction h with
  | and _ _ iha ihb => exact ⟨.and iha.1 ihb.1, .or iha.2 ihb.2⟩
  | or _ _ iha ihb => exact ⟨.or iha.1 ihb.1, .and iha.2 ihb.2⟩
  | not _ ih => exact ⟨ih.2, ih.1⟩
  | test h => exact ⟨.test h, .not (.test h)⟩

theorem Related.conjuncts {f f' : Filter} (h : Related R f f') :
    List.Forall₂ (Related R) f.conjuncts f'.conjuncts := by
  induction h with
  | and _ _ iha ihb => exact List.rel_append iha ihb
  | or ha hb => exact .cons (.or ha hb) .nil
  | not h => exact .cons (.not h) .nil
  | test h => exact .cons (.test h) .nil

theorem Related.foldl_and {f g : Filter} {fs gs : List Filter} (h : Related R f g)
    (hrest : List.Forall₂ (Related R) fs gs) : Related R (fs.foldl .and f) (gs.foldl .and g) := by
  induction hrest generalizing f g with
  | nil => exact h
  | cons hnext _ ih => exact ih (.and h hnext)

theorem related_all? {fs gs : List Filter} (h : List.Forall₂ (Related R) fs gs) :
    Option.Rel (Related R) (all? fs) (all? gs) := by
  cases h with
  | nil => exact .none
  | cons hfirst hrest => exact .some (hfirst.foldl_and hrest)

theorem related_toList {f? g? : Option Filter} (h : Option.Rel (Related R) f? g?) :
    List.Forall₂ (Related R) f?.toList g?.toList := by
  cases h with
  | some h => exact .cons h .nil
  | none => exact .nil

theorem related_map_pushNot {f? g? : Option Filter} (h : Option.Rel (Related R) f? g?) :
    Option.Rel (Related R) (f?.map pushNot) (g?.map pushNot) := by
  cases h with
  | some h => exact .some h.pushNot_negated.1
  | none => exact .none

end

end Filter

namespace Placement

open Rollup.Filter (Related)

/-- Conditions of one shape with related predicates, clause by clause. -/
structure Related (R : Predicate → Predicate → Prop) (p p' : Placement) : Prop where
  rows : Option.Rel (Filter.Related R) p.rows p'.rows
  groups : Option.Rel (Filter.Related R) p.groups p'.groups

/-- Two queries check related predicates alike and place them in the same clauses. -/
structure TreatsAlike {m : Model} (R : Predicate → Predicate → Prop) (q q' : Query)
    (root : m.Member) : Prop where
  operator : ∀ {p p'}, R p p' → Agree (· = ·)
    (do let (_, c) ← locate root p.column
        checkOperator p c)
    (do let (_, c) ← locate root p'.column
        checkOperator p' c)
  place : ∀ {p p'} origin, R p p' →
    Agree (· = ·) (place q root origin p) (place q' root origin p')
  promotable : ∀ {p p'}, R p p' →
    Agree (· = ·) (checkPromotable q root p) (checkPromotable q' root p')
  rawMetric : ∀ {p p'}, R p p' → Agree (· = ·)
    (do let (_, c) ← locate root p.column
        if c.isMetric then checkRawMetric q root p)
    (do let (_, c) ← locate root p'.column
        if c.isMetric then checkRawMetric q' root p')

section

variable {m : Model} {R : Predicate → Predicate → Prop} {q q' : Query} {root : m.Member}

/-- Related things in the same place. -/
def SamePlace {α : Type} (R : α → α → Prop) (r s : Clause × α) : Prop :=
  r.1 = s.1 ∧ R r.2 s.2

theorem placePart_related (halike : TreatsAlike R q q' root) {f f' : Filter}
    (hf : Filter.Related R f f') (origin : Clause) :
    Agree (· = ·) (placePart q root origin f) (placePart q' root origin f') := by
  have hplaced : Agree (List.Forall₂ fun r s => R r.1 s.1 ∧ r.2 = s.2)
      (f.predicates.mapM fun p => (place q root origin p).map fun c => (p, c))
      (f'.predicates.mapM fun p => (place q' root origin p).map fun c => (p, c)) :=
    agree_mapM (hf.predicates.imp fun p p' hp =>
      (halike.place origin hp).map fun c c' hc => ⟨hp, hc⟩)
  unfold placePart
  refine hplaced.bind fun rs ss hrs => ?_
  have hall : rs.all (·.2 == .rows) = ss.all (·.2 == .rows) := by
    -- only the clauses matter here, which are the same
    clear hplaced
    induction hrs with
    | nil => rfl
    | cons hfirst _ ih => rw [List.all_cons, List.all_cons, ih, hfirst.2]
  rw [hall]
  split
  · rfl
  · refine (agree_forM (hrs.imp fun r s hrs => ?_)).bind fun _ _ _ => rfl
    obtain ⟨p, c⟩ := r
    obtain ⟨p', c'⟩ := s
    obtain ⟨hp, rfl⟩ := hrs
    dsimp only
    split
    · exact halike.promotable hp
    · rfl

theorem placeParts_related (halike : TreatsAlike R q q' root) {f f' : Filter}
    (hf : Filter.Related R f f') (origin : Clause) :
    Agree (List.Forall₂ (SamePlace (Filter.Related R))) (placeParts q root origin f)
      (placeParts q' root origin f') := by
  refine agree_mapM (hf.conjuncts.imp fun g g' hg => ?_)
  exact (placePart_related halike hg origin).map fun c c' hc => ⟨hc, hg⟩

theorem gather_related {rs ss : List (Clause × Filter)}
    (hrs : List.Forall₂ (SamePlace (Filter.Related R)) rs ss) (c : Clause) :
    Option.Rel (Filter.Related R) (gather c rs) (gather c ss) := by
  refine Filter.related_all? ?_
  induction hrs with
  | nil => exact .nil
  | cons hfirst _ ih =>
    rw [List.filter_cons, List.filter_cons, hfirst.1]
    split
    · exact .cons hfirst.2 ih
    · exact ih

/-- Filters with related predicates are placed alike where their predicates are treated alike. -/
theorem of_related (htable : q.table = q'.table) (hagg : q.isAggregated = q'.isAggregated)
    (hwhere : Option.Rel (Filter.Related R) q.whereFilter q'.whereFilter)
    (hhaving : Option.Rel (Filter.Related R) q.havingFilter q'.havingFilter)
    (halike : ∀ root, m.require q.table = .ok root → TreatsAlike R q q' root) :
    Agree (Related R) (of m q) (of m q') := by
  have hrows := Filter.related_map_pushNot hwhere
  have hgroups := Filter.related_map_pushNot hhaving
  have hboth := List.rel_append (Filter.related_toList hrows) (Filter.related_toList hgroups)
  unfold of
  rw [← htable, ← hagg]
  cases hroot : m.require q.table with
  | error e => exact agree_throw rfl
  | ok root =>
    replace halike := halike root hroot
    show Agree _ (_ >>= _) (_ >>= _)
    refine (agree_forM ?_).bind fun _ _ _ => ?_
    · exact hboth.imp fun f f' hf => agree_forM (hf.predicates.imp fun _ _ => halike.operator)
    · split
      · refine (agree_mapM ((Filter.related_toList hrows).imp fun f f' hf =>
          placeParts_related halike hf .rows)).bind fun rs ss hrs => ?_
        refine (agree_mapM ((Filter.related_toList hgroups).imp fun f f' hf =>
          placeParts_related halike hf .groups)).bind fun rs' ss' hrs' => ?_
        have hparts := List.rel_flatten (List.rel_append hrs hrs')
        exact ⟨gather_related hparts .rows, gather_related hparts .groups⟩
      · -- without metrics everything is on the rows, once the metrics in it were refused
        have hmerged := Filter.related_all? hboth
        refine (agree_forM ?_).bind fun _ _ _ => ⟨hmerged, .none⟩
        exact (Filter.related_toList hmerged).imp fun f f' hf =>
          agree_forM (hf.predicates.imp fun _ _ => halike.rawMetric)

end

end Placement

end Rollup
