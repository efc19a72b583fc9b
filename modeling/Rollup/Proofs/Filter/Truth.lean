/-
What a filter says of a row or a group, in SQL's three-valued logic, and which of the changes that
filters go through keep it: bringing a filter into negation normal form, cutting it at its `and`s
and putting the parts together again. The same changes keep the predicates and their order.
-/
import Rollup.Filter.Basic
import Mathlib.Data.List.Flatten

namespace Rollup

/-- The truth values of SQL. -/
inductive Truth where
  | yes
  | no
  | unknown
  deriving DecidableEq, Repr

namespace Truth

/-- Yes and no change places. -/
def not : Truth → Truth
  | yes => no
  | no => yes
  | unknown => unknown

/-- No if either is, yes if both are. -/
def and : Truth → Truth → Truth
  | no, _ | _, no => no
  | yes, yes => yes
  | _, _ => unknown

/-- Yes if either is, no if both are. -/
def or : Truth → Truth → Truth
  | yes, _ | _, yes => yes
  | no, no => no
  | _, _ => unknown

@[simp] theorem not_not (a : Truth) : a.not.not = a := by cases a <;> rfl

@[simp] theorem yes_and (a : Truth) : yes.and a = a := by cases a <;> rfl

@[simp] theorem and_yes (a : Truth) : a.and yes = a := by cases a <;> rfl

theorem not_and (a b : Truth) : (a.and b).not = a.not.or b.not := by cases a <;> cases b <;> rfl

theorem not_or (a b : Truth) : (a.or b).not = a.not.and b.not := by cases a <;> cases b <;> rfl

theorem and_comm (a b : Truth) : a.and b = b.and a := by cases a <;> cases b <;> rfl

theorem and_assoc (a b c : Truth) : (a.and b).and c = a.and (b.and c) := by
  cases a <;> cases b <;> cases c <;> rfl

theorem and_left_comm (a b c : Truth) : a.and (b.and c) = b.and (a.and c) := by
  rw [← and_assoc, and_comm a b, and_assoc]

end Truth

namespace Filter

/-- The value of a filter when `v` gives the outcome of every test. -/
def value (v : Predicate → Truth) : Filter → Truth
  | and a b => (a.value v).and (b.value v)
  | or a b => (a.value v).or (b.value v)
  | not f => (f.value v).not
  | test p => v p

/-- The value of all of some filters. -/
def valueAll (v : Predicate → Truth) (fs : List Filter) : Truth :=
  (fs.map (value v)).foldr Truth.and .yes

/-- The value of a filter that may be absent: no filter leaves nothing out. -/
def valueOf (v : Predicate → Truth) (f : Option Filter) : Truth :=
  valueAll v f.toList

/-- The predicates of a filter that may be absent. -/
def predicatesOf (f : Option Filter) : List Predicate :=
  f.toList.flatMap predicates

section Value

variable (v : Predicate → Truth)

@[simp] theorem valueAll_nil : valueAll v [] = .yes := rfl

@[simp] theorem valueAll_cons (f : Filter) (fs : List Filter) :
    valueAll v (f :: fs) = (f.value v).and (valueAll v fs) := rfl

theorem valueAll_append (fs gs : List Filter) :
    valueAll v (fs ++ gs) = (valueAll v fs).and (valueAll v gs) := by
  induction fs with
  | nil => simp
  | cons f fs ih => rw [List.cons_append, valueAll_cons, ih, valueAll_cons, Truth.and_assoc]

@[simp] theorem valueOf_none : valueOf v none = .yes := rfl

@[simp] theorem valueOf_some (f : Filter) : valueOf v (some f) = f.value v := by simp [valueOf]

/-! ## Negation normal form -/

theorem value_pushNot_negated (f : Filter) :
    f.pushNot.value v = f.value v ∧ f.negated.value v = (f.value v).not := by
  induction f with
  | and a b iha ihb =>
    simp only [pushNot, negated, value, iha, ihb, Truth.not_and, and_self]
  | or a b iha ihb =>
    simp only [pushNot, negated, value, iha, ihb, Truth.not_or, and_self]
  | not f ih => simp only [pushNot, negated, value, ih, Truth.not_not, and_self]
  | test p => exact ⟨rfl, rfl⟩

@[simp] theorem value_pushNot (f : Filter) : f.pushNot.value v = f.value v :=
  (value_pushNot_negated v f).1

theorem valueOf_map_pushNot (f : Option Filter) : valueOf v (f.map pushNot) = valueOf v f := by
  cases f <;> simp

/-! ## Conjunctions -/

theorem value_foldl_and (f : Filter) (fs : List Filter) :
    (fs.foldl and f).value v = (f.value v).and (valueAll v fs) := by
  induction fs generalizing f with
  | nil => simp
  | cons g fs ih => rw [List.foldl_cons, ih, value, valueAll_cons, Truth.and_assoc]

/-- Filters put together are worth what they are worth one by one. -/
theorem valueOf_all? (fs : List Filter) : valueOf v (all? fs) = valueAll v fs := by
  cases fs with
  | nil => rfl
  | cons f fs => rw [all?, valueOf_some, value_foldl_and, valueAll_cons]

/-- Cutting a filter at its `and`s keeps its value. -/
theorem valueAll_conjuncts (f : Filter) : valueAll v f.conjuncts = f.value v := by
  induction f with
  | and a b iha ihb => rw [conjuncts, valueAll_append, iha, ihb, value]
  | or a b => simp [conjuncts]
  | not f => simp [conjuncts]
  | test p => simp [conjuncts]

end Value

/-! ## Predicates -/

@[simp] theorem predicatesOf_none : predicatesOf none = [] := rfl

@[simp] theorem predicatesOf_some (f : Filter) : predicatesOf (some f) = f.predicates := by
  simp [predicatesOf]

theorem predicates_pushNot_negated (f : Filter) :
    f.pushNot.predicates = f.predicates ∧ f.negated.predicates = f.predicates := by
  induction f with
  | and a b iha ihb => simp only [pushNot, negated, predicates, iha, ihb, and_self]
  | or a b iha ihb => simp only [pushNot, negated, predicates, iha, ihb, and_self]
  | not f ih => simp only [pushNot, negated, predicates, ih, and_self]
  | test p => exact ⟨rfl, rfl⟩

@[simp] theorem predicates_pushNot (f : Filter) : f.pushNot.predicates = f.predicates :=
  (predicates_pushNot_negated f).1

theorem predicatesOf_map_pushNot (f : Option Filter) :
    predicatesOf (f.map pushNot) = predicatesOf f := by
  cases f <;> simp

theorem predicates_foldl_and (f : Filter) (fs : List Filter) :
    (fs.foldl and f).predicates = f.predicates ++ fs.flatMap predicates := by
  induction fs generalizing f with
  | nil => simp
  | cons g fs ih => rw [List.foldl_cons, ih, predicates, List.flatMap_cons, List.append_assoc]

theorem predicatesOf_all? (fs : List Filter) : predicatesOf (all? fs) = fs.flatMap predicates := by
  cases fs with
  | nil => rfl
  | cons f fs => rw [all?, predicatesOf_some, predicates_foldl_and, List.flatMap_cons]

theorem flatMap_predicates_conjuncts (f : Filter) :
    f.conjuncts.flatMap predicates = f.predicates := by
  induction f with
  | and a b iha ihb => rw [conjuncts, List.flatMap_append, iha, ihb, predicates]
  | or a b => simp [conjuncts]
  | not f => simp [conjuncts]
  | test p => simp [conjuncts]

end Filter

end Rollup
