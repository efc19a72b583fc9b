/-
Properties of expressions that pass from operands to what operators make of them. The texts that a
few operators are written with have such a property by themselves.
-/
import Rollup.Sql.Expr

namespace Rollup.Sql

/-- The texts that expressions hold whatever the model. -/
def fixedTexts : List String := ["1.0", "0", "1 = 1", "1 = 0"]

namespace Expr

/-- What is made of expressions with a property has it. -/
structure Composes (P : Expr → Prop) : Prop where
  param (n : Nat) : P (.param n)
  fixed {sql : String} (h : sql ∈ fixedTexts) : P (.raw sql)
  binary {a b : Expr} (ha : P a) (op : BinaryOp) (hb : P b) : P (.binary a op b)
  not {e : Expr} (he : P e) : P (.not e)
  paren {e : Expr} (he : P e) : P (.paren e)
  call (f : String) (distinct : Bool) {es : List Expr} (h : ∀ e ∈ es, P e) : P (.call f distinct es)
  inList {e : Expr} (he : P e) (negated : Bool) {es : List Expr} (h : ∀ v ∈ es, P v) :
    P (.inList e negated es)
  between {e low high : Expr} (he : P e) (negated : Bool) (hlow : P low) (hhigh : P high) :
    P (.between e negated low high)
  isNull {e : Expr} (he : P e) (negated : Bool) : P (.isNull e negated)
  like {e pattern : Expr} (he : P e) (negated : Bool) (hpattern : P pattern) (escape : Char) :
    P (.like e negated pattern escape)

namespace Composes

variable {P : Expr → Prop} {a e v e' : Expr} {es : List Expr} {d : Dialect}

theorem function (hP : Composes P) (f : String) (he : P e) : P (Expr.function f e) :=
  hP.call f false (List.forall_mem_singleton.2 he)

theorem foldl_binary (hP : Composes P) {op : BinaryOp} {f : Expr → Expr} (hf : ∀ e, P e → P (f e))
    (ha : P a) (h : ∀ e ∈ es, P e) : P (es.foldl (fun acc e => .binary acc op (f e)) a) := by
  induction es generalizing a with
  | nil => exact ha
  | cons e es ih =>
    obtain ⟨he, hes⟩ := List.forall_mem_cons.1 h
    exact ih (hP.binary ha op (hf e he)) hes

theorem any? (hP : Composes P) (h : ∀ e ∈ es, P e) : ∀ e ∈ Expr.any? es, P e := by
  cases es with
  | nil => exact fun e he => by cases he
  | cons e es =>
    obtain ⟨he, hes⟩ := List.forall_mem_cons.1 h
    rintro _ ⟨⟩
    exact hP.foldl_binary (f := id) (fun _ h => h) he hes

theorem all? (hP : Composes P) (h : ∀ e ∈ es, P e) : ∀ e ∈ Expr.all? es, P e := by
  have hguard : ∀ e : Expr, P e → P (if e.isDisjunction then .paren e else e) := by
    intro e he
    split
    · exact hP.paren he
    · exact he
  cases es with
  | nil => exact fun e he => by cases he
  | cons e es =>
    obtain ⟨he, hes⟩ := List.forall_mem_cons.1 h
    rintro _ ⟨⟩
    exact hP.foldl_binary hguard (hguard e he) hes

theorem hasNone? (hP : Composes P) (he : P e) (h : Expr.hasNone? d e = some e') : P e' := by
  have hzero : P (.raw "0") := hP.fixed (by decide)
  have hsize : ∀ size, P (.binary (.call "COALESCE" false [.function size e, .raw "0"]) .eq
      (.raw "0")) := by
    intro size
    refine hP.binary (hP.call _ _ ?_) _ hzero
    exact List.forall_mem_cons.2 ⟨hP.function size he, List.forall_mem_singleton.2 hzero⟩
  cases d <;> cases h
  · exact hsize "LEN"
  · exact hsize "CARDINALITY"

theorem holds? (hP : Composes P) (he : P e) (hv : P v) (h : Expr.holds? d e v = some e') :
    P e' := by
  cases d <;> cases h
  · exact hP.call _ _ (List.forall_mem_cons.2 ⟨he, List.forall_mem_singleton.2 hv⟩)
  · exact hP.binary hv _ (hP.function _ he)

end Composes

/-! ## Columns -/

mutual

/-- The columns an expression names. A test against an empty list names none. -/
def columns : Expr → List (Option String × String)
  | column table name => [(table, name)]
  | param _ | star | raw _ | inList _ _ [] => []
  | binary left _ right => left.columns ++ right.columns
  | not e | isNull e _ | paren e => e.columns
  | call _ _ es | tuple es => columnsOfAll es
  | inList e _ (v :: values) => e.columns ++ (v.columns ++ columnsOfAll values)
  | between e _ low high => e.columns ++ (low.columns ++ high.columns)
  | like e _ pattern _ => e.columns ++ pattern.columns

/-- The columns that some expressions name. -/
def columnsOfAll : List Expr → List (Option String × String)
  | [] => []
  | e :: rest => e.columns ++ columnsOfAll rest

end

theorem mem_columnsOfAll {c : Option String × String} {es : List Expr} :
    c ∈ columnsOfAll es ↔ ∃ e ∈ es, c ∈ e.columns := by
  induction es with
  | nil => simp [columnsOfAll]
  | cons e es ih => simp [columnsOfAll, ih]

/-- What is made of expressions names the columns they name. -/
theorem composes_columns (P : Option String × String → Prop) :
    Composes fun e => ∀ c ∈ e.columns, P c where
  param _ _ hc := (List.not_mem_nil hc).elim
  fixed _ _ hc := (List.not_mem_nil hc).elim
  binary ha _ hb := List.forall_mem_append.2 ⟨ha, hb⟩
  not he := he
  paren he := he
  call _ _ _ h c hc := by
    obtain ⟨e, he, hc⟩ := mem_columnsOfAll.1 hc
    exact h e he c hc
  inList he _ es h := by
    cases es with
    | nil => exact fun c hc => (List.not_mem_nil hc).elim
    | cons v values =>
      refine List.forall_mem_append.2 ⟨he, fun c hc => ?_⟩
      have hvalues : c ∈ columnsOfAll (v :: values) := hc
      obtain ⟨e, he, hc⟩ := mem_columnsOfAll.1 hvalues
      exact h e he c hc
  between he _ hlow hhigh :=
    List.forall_mem_append.2 ⟨he, List.forall_mem_append.2 ⟨hlow, hhigh⟩⟩
  isNull he _ := he
  like he _ hpattern _ := List.forall_mem_append.2 ⟨he, hpattern⟩

end Expr

end Rollup.Sql
