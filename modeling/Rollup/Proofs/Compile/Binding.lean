/-
What conditions bind. A predicate binds its operands in the form they are compared in, and the
parameters of its test are the positions they were bound at. A filter binds what its predicates
bind, from left to right, however the chains of its `and`s and `or`s are written.
-/
import Rollup.Compile.Condition
import Rollup.Filter.Placement
import Rollup.Proofs.Outcome
import Rollup.Proofs.Sql.Statement

namespace Rollup

open Sql

/-- An operand in the form an operator compares with. -/
def Operator.bound : Operator → Operand → Operand
  | .oneOf _ case, v => Condition.member case v
  | .find anchor case, v => .text (Condition.pattern anchor (Condition.cased case v.plainText))
  | _, v => v

/-- What a predicate binds. -/
def Predicate.bound (p : Predicate) : List Operand :=
  p.values.map p.op.bound

/-- What the predicates of a filter bind. -/
def Filter.bound (f : Filter) : List Operand :=
  f.predicates.flatMap Predicate.bound

/-- As many operands as the operator takes. -/
def Predicate.Fits (p : Predicate) : Prop :=
  ∀ n, p.op.arity = .exactly n → p.values.length = n

theorem Placement.fits_of_checkOperator {p : Predicate} {c : Column}
    (h : checkOperator p c = .ok ()) : p.Fits := by
  intro n hn
  simp only [checkOperator, hn] at h
  split at h
  · cases h
  · split at h
    · cases h
    · rename_i hcount
      simpa using hcount

/-! ## Computations that bind -/

/-- The positions of values that are bound after others. -/
def bindings (ps vs : List Operand) : List Nat :=
  List.range' (ps.length + 1) vs.length

theorem bindings_append (ps vs ws : List Operand) :
    bindings ps (vs ++ ws) = bindings ps vs ++ bindings (ps ++ vs) ws := by
  unfold bindings
  rw [List.length_append, List.length_append, Nat.add_right_comm, List.range'_append_1]

/-- A computation binds these values whenever it succeeds, and what it yields has their
positions. -/
def Binds {α : Type} (x : Binding α) (vs : List Operand) (has : α → List Nat → Prop) : Prop :=
  ∀ ps a ps', x.run ps = .ok (a, ps') → ps' = ps ++ vs ∧ has a (bindings ps vs)

section

variable {α β : Type} {x : Binding α} {v w : List Operand} {P : α → List Nat → Prop}

theorem binds_pure {a : α} (h : P a []) : Binds (pure a) [] P := by
  intro ps b ps' hrun
  cases hrun
  exact ⟨(List.append_nil ps).symm, h⟩

theorem Binds.bind {f : α → Binding β} {Q : β → List Nat → Prop} (hx : Binds x v P)
    (hf : ∀ a ns, P a ns → Binds (f a) w fun b ms => Q b (ns ++ ms)) :
    Binds (x >>= f) (v ++ w) Q := by
  intro ps b ps' hrun
  obtain ⟨a, qs, ha, hb⟩ := run_bind_ok hrun
  obtain ⟨rfl, hP⟩ := hx ps a qs ha
  obtain ⟨rfl, hQ⟩ := hf a _ hP _ b ps' hb
  rw [bindings_append, List.append_assoc]
  exact ⟨rfl, hQ⟩

theorem Binds.map {f : α → β} {Q : β → List Nat → Prop} (hx : Binds x v P)
    (hf : ∀ a ns, P a ns → Q (f a) ns) : Binds (do return f (← x)) v Q := by
  have h := hx.bind (w := []) (f := fun a => pure (f a)) (Q := Q)
    fun a ns ha => binds_pure (by rw [List.append_nil]; exact hf a ns ha)
  rwa [List.append_nil] at h

/-- What fails or not without binding anything. -/
theorem binds_lift {y : Except CompileError α} (h : ∀ a, y = .ok a → P a []) :
    Binds (liftM y : Binding α) [] P := by
  intro ps a ps' hrun
  cases y with
  | error e => cases hrun
  | ok b =>
    cases hrun
    exact ⟨(List.append_nil ps).symm, h _ rfl⟩

theorem binds_mapM_lift {f : β → Except CompileError α} {bs : List β} {R : α → Prop}
    (h : ∀ b a, f b = .ok a → R a) :
    Binds (bs.mapM fun b => (liftM (f b) : Binding α)) [] fun as ns =>
      (∀ a ∈ as, R a) ∧ ns = [] := by
  induction bs with
  | nil => exact binds_pure ⟨fun a ha => (List.not_mem_nil ha).elim, rfl⟩
  | cons b bs ih =>
    rw [List.mapM_cons]
    refine Binds.bind (v := []) (P := fun a ns => R a ∧ ns = [])
      (binds_lift fun a ha => ⟨h b a ha, rfl⟩) ?_
    rintro a ns ⟨ha, rfl⟩
    refine ih.map ?_
    rintro as ns ⟨has, rfl⟩
    refine ⟨fun a' ha' => ?_, rfl⟩
    rcases List.mem_cons.1 ha' with rfl | ha'
    · exact ha
    · exact has a' ha'

theorem binds_throw (e : CompileError) : Binds (throw e : Binding α) v P := by
  intro ps a ps' hrun
  cases hrun

end

namespace Condition

variable {d : Dialect} {texts : List String}

/-! ## Predicates -/

/-- An expression has these parameters. -/
def Has (d : Dialect) (texts : List String) (e : Expr) (ns : List Nat) : Prop :=
  Carries d texts e.tokens ns

/-- Expressions have these parameters one after the other. -/
def HasAll (d : Dialect) (texts : List String) (es : List Expr) (ns : List Nat) : Prop :=
  CarriesAll d texts (es.map Expr.tokens) ns

theorem HasAll.append {es fs : List Expr} {ns ms : List Nat} (hes : HasAll d texts es ns)
    (hfs : HasAll d texts fs ms) : HasAll d texts (es ++ fs) (ns ++ ms) := by
  rw [HasAll, List.map_append]
  exact CarriesAll.append hes hfs

theorem binds_bind (d : Dialect) (texts : List String) (v : Operand) :
    Binds (bind v) [v] (Has d texts) := by
  intro ps e ps' hrun
  cases hrun
  refine ⟨rfl, ?_⟩
  rw [List.length_append]
  exact carries_param d _

theorem binds_mapM (d : Dialect) (g : Operand → Operand) (vs : List Operand) :
    Binds (vs.mapM fun v => bind (g v)) (vs.map g) (HasAll d texts) := by
  induction vs with
  | nil => exact binds_pure (.nil d)
  | cons v vs ih =>
    rw [List.mapM_cons]
    refine (binds_bind d texts (g v)).bind fun e ns he => ?_
    exact ih.map fun es ms hes => .cons he hes

theorem has_casedColumn {e : Expr} (he : Has d texts e []) (case : LetterCase) :
    Has d texts (casedColumn case e) [] := by
  cases case with
  | sensitive => exact he
  | insensitive =>
    have hlower : "LOWER" ∈ functionNames := by decide
    exact Expr.carries_function hlower he

theorem has_negatedIf {e : Expr} {ns : List Nat} (he : Has d texts e ns) (negated : Bool) :
    Has d texts (negatedIf negated e) ns := by
  cases negated with
  | true => exact Expr.carries_not (Expr.carries_paren he)
  | false => exact he

theorem has_hasNone? {e e' : Expr} (he : Has d texts e []) (h : Expr.hasNone? d e = some e') :
    Has d texts e' [] := by
  have hzero : ∀ size ∈ functionNames, Has d texts (.binary (.call "COALESCE" false
      [.function size e, .raw "0"]) .eq (.raw "0")) [] := by
    intro size hsize
    have hargs : HasAll d texts [.function size e, .raw "0"] [] :=
      .cons (Expr.carries_function hsize he) (.singleton (Expr.carries_fixed d (by decide)))
    have hcoalesce : "COALESCE" ∈ functionNames := by decide
    exact Expr.carries_binary (Expr.carries_call hcoalesce false hargs) .eq
      (Expr.carries_fixed d (by decide))
  cases d <;> cases h
  · exact hzero "LEN" (by decide)
  · exact hzero "CARDINALITY" (by decide)

theorem has_holds? {e v e' : Expr} {ns : List Nat} (he : Has d texts e []) (hv : Has d texts v ns)
    (h : Expr.holds? d e v = some e') : Has d texts e' ns := by
  cases d <;> cases h
  · -- the member is written after the list here, and before it below
    have hcontains : "LIST_CONTAINS" ∈ functionNames := by decide
    exact Expr.carries_call hcontains false (.cons he (.singleton hv))
  · have hany : "ANY" ∈ functionNames := by decide
    have := Expr.carries_binary hv .eq (Expr.carries_function hany he)
    rwa [List.append_nil] at this

theorem binds_offered {op : Operator} {e? : Option Expr} {P : Expr → List Nat → Prop}
    (h : ∀ e, e? = some e → P e []) : Binds (offered d op e?) [] P := by
  cases e? with
  | none => exact binds_throw _
  | some e => exact binds_pure (h e rfl)

/-- One case for each kind of operator: the parameters of the test stand where its operands were
bound, and those of the column would stand before them. -/
theorem binds_ofPredicate {column : Expr} {p : Predicate} (hcolumn : Has d texts column [])
    (hp : p.Fits) : Binds (ofPredicate d column p) p.bound (Has d texts) := by
  obtain ⟨path, op, values⟩ := p
  have hcount : ∀ n, op.arity = .exactly n → values.length = n := hp
  unfold ofPredicate
  cases op with
  | compare c =>
    obtain ⟨v, rfl⟩ := List.length_eq_one_iff.1 (hcount 1 rfl)
    exact (binds_bind d texts v).map fun e ns he => Expr.carries_binary hcolumn _ he
  | oneOf negated case =>
    exact (binds_mapM d (member case) values).map fun es ns hes =>
      Expr.carries_inList (has_casedColumn hcolumn case) negated hes
  | between negated =>
    obtain ⟨low, high, rfl⟩ := List.length_eq_two.1 (hcount 2 rfl)
    refine (binds_bind d texts low).bind (w := [high]) fun a ns ha => ?_
    exact (binds_bind d texts high).map fun b ms hb => Expr.carries_between hcolumn negated ha hb
  | find anchor case =>
    obtain ⟨v, rfl⟩ := List.length_eq_one_iff.1 (hcount 1 rfl)
    exact (binds_bind d texts _).map fun e ns he =>
      Expr.carries_like (has_casedColumn hcolumn case) false he escapeChar
  | isNull negated =>
    rw [List.length_eq_zero_iff.1 (hcount 0 rfl)]
    exact binds_pure (Expr.carries_isNull hcolumn negated)
  | isEmpty negated =>
    rw [List.length_eq_zero_iff.1 (hcount 0 rfl)]
    exact (binds_offered fun e he => has_hasNone? hcolumn he).map fun e ns he =>
      has_negatedIf he negated
  | hasMember negated =>
    obtain ⟨v, rfl⟩ := List.length_eq_one_iff.1 (hcount 1 rfl)
    refine (binds_bind d texts v).bind (w := []) fun value ns hvalue => ?_
    refine Binds.map (P := fun e ms => Has d texts e (ns ++ ms))
      (binds_offered fun e he => ?_) fun e ms he => has_negatedIf he negated
    rw [List.append_nil]
    exact has_holds? hcolumn hvalue he

/-! ## Filters -/

/-- The column of every predicate is written without parameters, and its operands fit. -/
def Sound (d : Dialect) (texts : List String) (column : Predicate → Except CompileError Expr)
    (f : Filter) : Prop :=
  ∀ p ∈ f.predicates, (∀ e, column p = .ok e → Has d texts e []) ∧ p.Fits

theorem binds_operands {column : Predicate → Except CompileError Expr} {f : Filter}
    (h : Sound d texts column f) (ands : Bool) :
    Binds (operands d column ands f) f.bound (HasAll d texts) := by
  induction f generalizing ands with
  | and a b iha ihb =>
    rw [Filter.bound, Filter.predicates, List.flatMap_append]
    refine (iha (fun p hp => h p (List.mem_append_left _ hp)) true).bind fun left ns hleft => ?_
    refine (ihb (fun p hp => h p (List.mem_append_right _ hp)) true).map fun right ms hright => ?_
    split
    · exact hleft.append hright
    · exact Expr.carries_all? (hleft.append hright)
  | or a b iha ihb =>
    rw [Filter.bound, Filter.predicates, List.flatMap_append]
    refine (iha (fun p hp => h p (List.mem_append_left _ hp)) false).bind fun left ns hleft => ?_
    refine (ihb (fun p hp => h p (List.mem_append_right _ hp)) false).map fun right ms hright => ?_
    split
    · exact Expr.carries_any? (hleft.append hright)
    · exact hleft.append hright
  | not f ih =>
    refine (ih h false).map fun es ns hes => ?_
    -- what is negated is one expression, unless there is nothing to negate
    cases hany : Expr.any? es with
    | none =>
      have hnone := Expr.carries_any? hes
      rw [hany] at hnone
      exact hnone
    | some e =>
      obtain ⟨ms, ks, he, hnil, rfl⟩ := CarriesAll.cons_inv (hany ▸ Expr.carries_any? hes)
      rw [hnil.nil_inv, List.append_nil]
      exact .singleton (Expr.carries_not (Expr.carries_paren he))
  | test p =>
    have hp := h p (List.mem_singleton_self p)
    rw [Filter.bound, Filter.predicates, List.flatMap_singleton]
    refine Binds.bind (v := []) (P := fun e ns => Has d texts e [] ∧ ns = [])
      (binds_lift fun e he => ⟨hp.1 e he, rfl⟩) ?_
    rintro e ns ⟨he, rfl⟩
    exact (binds_ofPredicate he hp.2).map fun e' ms he' => .singleton he'

/-- What a condition binds are the operands of its predicates from left to right. -/
theorem binds_ofFilter {column : Predicate → Except CompileError Expr} {f : Filter}
    (h : Sound d texts column f) :
    Binds (ofFilter d column f) f.bound (Expr.CarriesOption d texts) :=
  (binds_operands h false).map fun _ _ hes => Expr.carries_any? hes

end Condition

end Rollup
