/-
Negation normal form. Pushing the negations of a filter inwards ends at a filter in which `not`
stands only directly over predicates; such filters are just those that pushing leaves alone.

Pushing goes on with negated parts, which are no parts of the filter it began with, so its end is not
seen from its rules. Every filter has a run by these rules and one result: what is proved of a filter
is proved of its negation along with it.
-/
import Rollup.Proofs.Filter.Truth

namespace Rollup.Filter

/-! ## The form -/

/-- Filters in which `not` stands only directly over predicates. -/
inductive Normal : Filter → Prop where
  | test (p : Predicate) : Normal (.test p)
  | denied (p : Predicate) : Normal (.not (.test p))
  | and {a b : Filter} (ha : Normal a) (hb : Normal b) : Normal (.and a b)
  | or {a b : Filter} (ha : Normal a) (hb : Normal b) : Normal (.or a b)

theorem normal_pushNot_negated (f : Filter) : f.pushNot.Normal ∧ f.negated.Normal := by
  induction f with
  | and a b iha ihb => exact ⟨.and iha.1 ihb.1, .or iha.2 ihb.2⟩
  | or a b iha ihb => exact ⟨.or iha.1 ihb.1, .and iha.2 ihb.2⟩
  | not f ih => exact ⟨ih.2, ih.1⟩
  | test p => exact ⟨.test p, .denied p⟩

theorem normal_pushNot (f : Filter) : f.pushNot.Normal :=
  (normal_pushNot_negated f).1

theorem Normal.pushNot_eq {f : Filter} (h : f.Normal) : f.pushNot = f := by
  induction h with
  | test p => rfl
  | denied p => rfl
  | and _ _ iha ihb => rw [pushNot, iha, ihb]
  | or _ _ iha ihb => rw [pushNot, iha, ihb]

/-- Pushing leaves alone what is in normal form, and nothing else. -/
theorem pushNot_eq_self_iff {f : Filter} : f.pushNot = f ↔ f.Normal := by
  constructor
  · intro h
    rw [← h]
    exact normal_pushNot f
  · exact Normal.pushNot_eq

theorem pushNot_pushNot (f : Filter) : f.pushNot.pushNot = f.pushNot :=
  (normal_pushNot f).pushNot_eq

/-! ## The run -/

/-- How negations are pushed: two in a row cancel, one over a connective turns it into the other
connective and goes on into both sides. -/
inductive Pushes : Filter → Filter → Prop where
  | test (p : Predicate) : Pushes (.test p) (.test p)
  | and {a b a' b' : Filter} (ha : Pushes a a') (hb : Pushes b b') :
    Pushes (.and a b) (.and a' b')
  | or {a b a' b' : Filter} (ha : Pushes a a') (hb : Pushes b b') :
    Pushes (.or a b) (.or a' b')
  | notTest (p : Predicate) : Pushes (.not (.test p)) (.not (.test p))
  | notNot {f g : Filter} (h : Pushes f g) : Pushes (.not (.not f)) g
  | notAnd {a b a' b' : Filter} (ha : Pushes (.not a) a') (hb : Pushes (.not b) b') :
    Pushes (.not (.and a b)) (.or a' b')
  | notOr {a b a' b' : Filter} (ha : Pushes (.not a) a') (hb : Pushes (.not b) b') :
    Pushes (.not (.or a b)) (.and a' b')

theorem pushes_pushNot_negated (f : Filter) : Pushes f f.pushNot ∧ Pushes (.not f) f.negated := by
  induction f with
  | and a b iha ihb => exact ⟨.and iha.1 ihb.1, .notAnd iha.2 ihb.2⟩
  | or a b iha ihb => exact ⟨.or iha.1 ihb.1, .notOr iha.2 ihb.2⟩
  | not f ih => exact ⟨ih.2, .notNot ih.1⟩
  | test p => exact ⟨.test p, .notTest p⟩

theorem Pushes.eq_pushNot {f g : Filter} (h : Pushes f g) : g = f.pushNot := by
  induction h with
  | test p => rfl
  | notTest p => rfl
  | and _ _ iha ihb => rw [iha, ihb, pushNot]
  | or _ _ iha ihb => rw [iha, ihb, pushNot]
  | notNot _ ih => rw [ih, pushNot, negated]
  | notAnd _ _ iha ihb => rw [iha, ihb]; rfl
  | notOr _ _ iha ihb => rw [iha, ihb]; rfl

/-- By the rules every filter comes to what `pushNot` gives, and to nothing else. -/
theorem pushes_iff {f g : Filter} : Pushes f g ↔ g = f.pushNot := by
  constructor
  · exact Pushes.eq_pushNot
  · rintro rfl
    exact (pushes_pushNot_negated f).1

/-- Pushing the negations of a filter inwards comes to an end, at a filter in normal form with the
same predicates in the same order, which is worth the same however the tests turn out and which is
left alone when it is pushed again. -/
theorem pushNot_normalizes (f : Filter) :
    (∀ g, Pushes f g ↔ g = f.pushNot) ∧ f.pushNot.Normal ∧
      f.pushNot.predicates = f.predicates ∧ (∀ v, f.pushNot.value v = f.value v) ∧
      f.pushNot.pushNot = f.pushNot :=
  ⟨fun _ => pushes_iff, normal_pushNot f, predicates_pushNot f, fun v => value_pushNot v f,
    pushNot_pushNot f⟩

end Rollup.Filter
