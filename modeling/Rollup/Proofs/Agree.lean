/-
Computations that go the same way: both succeed with related results, or both fail with errors of
one kind. For computations that bind values, with related values bound.
-/
import Rollup.Compile.Condition
import Mathlib.Data.List.Forall2

namespace Rollup

variable {α β γ δ : Type} {R : α → β → Prop} {S : γ → δ → Prop}

/-- Both succeed with related results, or both fail with errors of one kind. -/
def Agree (R : α → β → Prop) : Except CompileError α → Except CompileError β → Prop
  | .ok a, .ok b => R a b
  | .error e, .error e' => e.kind = e'.kind
  | _, _ => False

/-- In both cases, as they are read. -/
theorem Agree.cases {x : Except CompileError α} {y : Except CompileError β} (h : Agree R x y) :
    (∃ e e', x = .error e ∧ y = .error e' ∧ e.kind = e'.kind) ∨
      ∃ a b, x = .ok a ∧ y = .ok b ∧ R a b := by
  cases x with
  | error e =>
    cases y with
    | error e' => exact .inl ⟨e, e', rfl, rfl, h⟩
    | ok b => exact h.elim
  | ok a =>
    cases y with
    | error e' => exact h.elim
    | ok b => exact .inr ⟨a, b, rfl, rfl, h⟩

theorem agree_refl (x : Except CompileError α) : Agree (· = ·) x x := by
  cases x <;> rfl

theorem Agree.imp {R' : α → β → Prop} {x : Except CompileError α} {y : Except CompileError β}
    (h : Agree R x y) (hR : ∀ a b, R a b → R' a b) : Agree R' x y := by
  rcases h.cases with ⟨e, e', rfl, rfl, h⟩ | ⟨a, b, rfl, rfl, h⟩
  · exact h
  · exact hR a b h

theorem agree_throw {e e' : CompileError} (h : e.kind = e'.kind) :
    Agree R (throw e) (throw e') :=
  h

theorem Agree.bind {x : Except CompileError α} {y : Except CompileError β}
    {f : α → Except CompileError γ} {g : β → Except CompileError δ} (h : Agree R x y)
    (hf : ∀ a b, R a b → Agree S (f a) (g b)) : Agree S (x >>= f) (y >>= g) := by
  rcases h.cases with ⟨e, e', rfl, rfl, h⟩ | ⟨a, b, rfl, rfl, h⟩
  · exact h
  · exact hf a b h

/-- The same computation with two ways to go on. -/
theorem agree_bind {x : Except CompileError α} {f : α → Except CompileError γ}
    {g : α → Except CompileError δ} (hf : ∀ a, Agree S (f a) (g a)) :
    Agree S (x >>= f) (x >>= g) :=
  (agree_refl x).bind fun a _ h => h ▸ hf a

theorem Agree.map {x : Except CompileError α} {y : Except CompileError β} {f : α → γ} {g : β → δ}
    (h : Agree R x y) (hf : ∀ a b, R a b → S (f a) (g b)) : Agree S (x.map f) (y.map g) := by
  rcases h.cases with ⟨e, e', rfl, rfl, h⟩ | ⟨a, b, rfl, rfl, h⟩
  · exact h
  · exact hf a b h

theorem agree_mapM {f : γ → Except CompileError α} {g : δ → Except CompileError β}
    {cs : List γ} {ds : List δ} (h : List.Forall₂ (fun c d => Agree R (f c) (g d)) cs ds) :
    Agree (List.Forall₂ R) (cs.mapM f) (ds.mapM g) := by
  induction h with
  | nil => exact .nil
  | cons hfirst _ ih =>
    rw [List.mapM_cons, List.mapM_cons]
    refine hfirst.bind fun a b hab => ?_
    exact ih.bind fun as bs hrest => List.Forall₂.cons hab hrest

theorem agree_forM {f : γ → Except CompileError Unit} {g : δ → Except CompileError Unit}
    {cs : List γ} {ds : List δ} (h : List.Forall₂ (fun c d => Agree (· = ·) (f c) (g d)) cs ds) :
    Agree (· = ·) (cs.forM f) (ds.forM g) := by
  induction h with
  | nil => rfl
  | cons hfirst _ ih =>
    rw [List.forM_eq_forM, List.forM_eq_forM, List.forM_cons, List.forM_cons]
    exact hfirst.bind fun _ _ _ => ih

/-! ## Values that are bound -/

namespace Operand

/-- Operands of one kind. -/
inductive SameKind : Operand → Operand → Prop
  | null : SameKind .null .null
  | bool (a b : Bool) : SameKind (.bool a) (.bool b)
  | int (a b : Int64) : SameKind (.int a) (.int b)
  | real (a b : Double) : SameKind (.real a) (.real b)
  | text (a b : String) : SameKind (.text a) (.text b)

theorem SameKind.refl (v : Operand) : SameKind v v := by
  cases v <;> constructor

theorem SameKind.isText_eq {v w : Operand} (h : SameKind v w) : v.isText = w.isText := by
  cases h <;> rfl

end Operand

/-- The same, whatever values of one kind were bound before. -/
def AgreeBinding (R : α → β → Prop) (x : Binding α) (y : Binding β) : Prop :=
  ∀ ps qs, List.Forall₂ Operand.SameKind ps qs →
    Agree (fun r s => R r.1 s.1 ∧ List.Forall₂ Operand.SameKind r.2 s.2) (x.run ps) (y.run qs)

namespace AgreeBinding

theorem pure {a : α} {b : β} (h : R a b) : AgreeBinding R (pure a) (pure b) :=
  fun _ _ hvalues => ⟨h, hvalues⟩

theorem lift {x : Except CompileError α} {y : Except CompileError β} (h : Agree R x y) :
    AgreeBinding R (liftM x) (liftM y) := by
  intro ps qs hvalues
  rcases h.cases with ⟨e, e', rfl, rfl, h⟩ | ⟨a, b, rfl, rfl, h⟩
  · exact h
  · exact ⟨h, hvalues⟩

theorem throw {e e' : CompileError} (h : e.kind = e'.kind) :
    AgreeBinding R (MonadExcept.throw e) (MonadExcept.throw e') :=
  fun _ _ _ => h

theorem bind {x : Binding α} {y : Binding β} {f : α → Binding γ} {g : β → Binding δ}
    (h : AgreeBinding R x y) (hf : ∀ a b, R a b → AgreeBinding S (f a) (g b)) :
    AgreeBinding S (x >>= f) (y >>= g) := by
  intro ps qs hvalues
  rw [StateT.run_bind, StateT.run_bind]
  exact (h ps qs hvalues).bind fun r s hrs => hf r.1 s.1 hrs.1 r.2 s.2 hrs.2

theorem mapM {f : γ → Binding α} {g : δ → Binding β} {cs : List γ} {ds : List δ}
    (h : List.Forall₂ (fun c d => AgreeBinding R (f c) (g d)) cs ds) :
    AgreeBinding (List.Forall₂ R) (cs.mapM f) (ds.mapM g) := by
  induction h with
  | nil => exact pure .nil
  | cons hfirst _ ih =>
    rw [List.mapM_cons, List.mapM_cons]
    refine hfirst.bind fun a b hab => ?_
    exact ih.bind fun as bs hrest => pure (.cons hab hrest)

end AgreeBinding

end Rollup
