/-
Columns as operands of what is written around them: of formulas that refer to them, and of filters
that test them. A column is put there as text, without parentheses. In the expression that the text
is, it is the operand at its place exactly if it binds as tightly as the place demands.
-/
import Rollup.Proofs.Compile.Texts
import Rollup.Proofs.Expansion.Operands
import Rollup.Proofs.Sql.Shown

namespace Rollup

open Sql Sql.Precedence

/-! ## What tests demand of columns -/

/-- How tightly a column must bind that is tested. Nothing is demanded where the column is the
argument of a function. -/
def Operator.demand : Operator → Nat
  | .compare _ | .oneOf _ .sensitive | .between _ | .find _ .sensitive => arithmetic
  | .isNull _ => comparison
  | .oneOf _ .insensitive | .find _ .insensitive | .isEmpty _ | .hasMember _ => 0

/-- A test is written with its column. Only that against an empty list is not. -/
def Predicate.NamesColumn (p : Predicate) : Prop :=
  ∀ negated case, p.op = .oneOf negated case → p.values ≠ []

namespace Condition

/-- The opposite of an expression, or itself. -/
def denied (negated : Bool) (t : Tree) : Tree :=
  if negated then .unary .not (.bracket .round t) else t

/-- The place of a column, in the form it is compared in. -/
def place : LetterCase → Tree
  | .sensitive => .hole 0
  | .insensitive => .call "LOWER" (.hole 0)

/-- The expression that a test is, with a place for its column; so many values are bound before. -/
def shape (d : Dialect) (p : Predicate) (bound : Nat) : Tree :=
  let value (i : Nat) : Tree := .leaf (d.placeholder (bound + i + 1))
  match p.op with
  | .compare c => .binary (.hole 0) (.test false ((comparison c).token.render d)) (value 0)
  | .oneOf negated case =>
    .binary (place case) (.test negated "IN")
      (.bracket .round (row (value 0) ((List.range p.values.tail.length).map fun i => value (i + 1))))
  | .between negated => .between negated (.hole 0) (value 0) (value 1)
  | .find _ case =>
    .binary (.binary (place case) (.test false "LIKE") (value 0)) .escape (.leaf "'!'")
  | .isNull negated => .binary (.hole 0) (.is negated) (.leaf "NULL")
  | .isEmpty negated =>
    let size := if d = .postgres then "CARDINALITY" else "LEN"
    denied negated (.binary (.call "COALESCE" (row (.call size (.hole 0)) [.leaf "0"]))
      (.test false "=") (.leaf "0"))
  | .hasMember negated =>
    denied negated (if d = .postgres then .binary (value 0) (.test false "=") (.call "ANY" (.hole 0))
      else .call "LIST_CONTAINS" (row (.hole 0) [value 0]))

section

variable {d : Dialect} {vs vs' : List Operand} {column e : Expr} {t u : Tree}

/-! ## Tests as trees -/

theorem bind_param {v : Operand} (h : (bind v).run vs = .ok (e, vs')) :
    e = .param (vs.length + 1) ∧ vs' = vs ++ [v] := by
  cases h
  exact ⟨congrArg Expr.param List.length_append, rfl⟩

theorem mapM_params {g : Operand → Operand} {ws : List Operand} {es : List Expr}
    (h : (ws.mapM fun v => bind (g v)).run vs = .ok (es, vs')) :
    es = (List.range ws.length).map fun i => .param (vs.length + i + 1) := by
  induction ws generalizing vs es with
  | nil =>
    cases h
    rfl
  | cons w ws ih =>
    rw [List.mapM_cons] at h
    obtain ⟨e, _, he, h⟩ := run_bind_ok h
    obtain ⟨es', _, hes, h⟩ := run_bind_ok h
    cases h
    obtain ⟨rfl, rfl⟩ := bind_param he
    rw [ih hes, List.length_cons, List.range_succ_eq_map, List.map_cons, List.map_map]
    congr 1
    refine List.map_congr_left fun i _ => ?_
    simp [Nat.add_assoc, Nat.add_comm 1]

theorem shows_casedColumn (hcolumn : column.Shows d t) (case : LetterCase) :
    (casedColumn case column).Shows d ((place case).fill fun _ => t) := by
  cases case with
  | sensitive => exact hcolumn
  | insensitive =>
    have hlower : Writes d [.function "LOWER"] [.operand "LOWER"] := by
      cases d <;> decide +kernel
    exact Expr.shows_function hlower hcolumn

theorem shows_negatedIf (he : e.Shows d (u.fill fun _ => t)) (negated : Bool) :
    (negatedIf negated e).Shows d ((denied negated u).fill fun _ => t) := by
  cases negated with
  | true => exact Expr.shows_not (Expr.shows_paren he)
  | false => exact he

theorem fill_shape_oneOf (path : Path) (negated : Bool) (case : LetterCase) (v : Operand)
    (values : List Operand) (bound : Nat) :
    (shape d ⟨path, .oneOf negated case, v :: values⟩ bound).fill (fun _ => t) =
      .binary ((place case).fill fun _ => t) (.test negated "IN")
        (.bracket .round (row (.leaf (d.placeholder (bound + 0 + 1)))
          ((List.range values.length).map fun i =>
            .leaf (d.placeholder (bound + (i + 1) + 1))))) := by
  have hrow := fill_row (fun _ => t) (.leaf (d.placeholder (bound + 0 + 1)))
    ((List.range values.length).map fun i => .leaf (d.placeholder (bound + (i + 1) + 1)))
  rw [List.map_map] at hrow
  rw [shape, Tree.fill, Tree.fill, List.tail_cons, hrow]
  rfl

/-- The text of a test has the words and signs of its shape, the column standing in its place. -/
theorem shows_ofPredicate {p : Predicate} (hp : p.NamesColumn) (hcolumn : column.Shows d t)
    (h : (ofPredicate d column p).run vs = .ok (e, vs')) :
    e.Shows d ((shape d p vs.length).fill fun _ => t) := by
  obtain ⟨path, op, values⟩ := p
  have heq : Writes d [BinaryOp.eq.token] (Binary.test false "=").lexemes := by
    cases d <;> decide +kernel
  have hzero : (Expr.raw "0").Shows d (.leaf "0") :=
    Expr.shows_of_read? (by rw [Expr.render_raw]; cases d <;> decide +kernel)
  unfold ofPredicate at h
  cases op with
  | compare c =>
    obtain ⟨v, _, hv, h⟩ := run_bind_ok h
    cases h
    obtain ⟨rfl, -⟩ := bind_param hv
    have hop : Writes d [(comparison c).token]
        (Binary.test false ((comparison c).token.render d)).lexemes := by
      cases c <;> cases d <;> decide +kernel
    exact Expr.shows_binary hcolumn hop (Expr.shows_param d _)
  | oneOf negated case =>
    obtain ⟨es, _, hes, h⟩ := run_bind_ok h
    cases h
    obtain ⟨v, values, rfl⟩ := List.exists_cons_of_ne_nil (hp negated case rfl)
    rw [mapM_params hes, List.length_cons, List.range_succ_eq_map, List.map_cons, List.map_map]
    have hothers : List.Forall₂ (Expr.Shows d)
        ((List.range values.length).map ((fun i => .param (vs.length + i + 1)) ∘ Nat.succ))
        ((List.range values.length).map fun i => .leaf (d.placeholder (vs.length + (i + 1) + 1))) := by
      rw [List.forall₂_map_left_iff, List.forall₂_map_right_iff, List.forall₂_same]
      exact fun i _ => Expr.shows_param d _
    have h := Expr.shows_inList (shows_casedColumn hcolumn case) negated
      (Expr.shows_param d (vs.length + 0 + 1)) hothers
    rw [fill_shape_oneOf]
    exact h
  | between negated =>
    obtain ⟨low, _, hlow, h⟩ := run_bind_ok h
    obtain ⟨high, _, hhigh, h⟩ := run_bind_ok h
    cases h
    obtain ⟨rfl, rfl⟩ := bind_param hlow
    obtain ⟨rfl, -⟩ := bind_param hhigh
    rw [List.length_append, List.length_singleton]
    exact Expr.shows_between hcolumn negated (Expr.shows_param d _) (Expr.shows_param d _)
  | find anchor case =>
    obtain ⟨v, _, hv, h⟩ := run_bind_ok h
    cases h
    obtain ⟨rfl, -⟩ := bind_param hv
    have hescape : Writes d [.string (String.singleton escapeChar)] [.operand "'!'"] := by
      cases d <;> decide +kernel
    exact Expr.shows_like (shows_casedColumn hcolumn case) false (Expr.shows_param d _) hescape
  | isNull negated =>
    cases h
    exact Expr.shows_isNull hcolumn negated
  | isEmpty negated =>
    obtain ⟨v, _, hv, h⟩ := run_bind_ok h
    cases h
    refine shows_negatedIf ?_ negated
    have hcoalesce : Writes d [.function "COALESCE"] [.operand "COALESCE"] := by
      cases d <;> decide +kernel
    have hsize : ∀ size, Writes d [.function size] [.operand size] →
        (Expr.binary (.call "COALESCE" false [.function size column, .raw "0"]) .eq
          (.raw "0")).Shows d (.binary (.call "COALESCE" (row (.call size t) [.leaf "0"]))
            (.test false "=") (.leaf "0")) := fun size hname =>
      Expr.shows_binary (Expr.shows_call hcoalesce (Expr.shows_function hname hcolumn)
        (.cons hzero .nil)) heq hzero
    have hoffered := offered_run hv
    cases d with
    | duckdb =>
      cases hoffered
      exact hsize "LEN" (by decide +kernel)
    | postgres =>
      cases hoffered
      exact hsize "CARDINALITY" (by decide +kernel)
    | tsql | mysql | snowflake | sqlite => cases hoffered
  | hasMember negated =>
    obtain ⟨v, _, hv, h⟩ := run_bind_ok h
    obtain ⟨w, _, hw, h⟩ := run_bind_ok h
    cases h
    obtain ⟨rfl, -⟩ := bind_param hv
    refine shows_negatedIf ?_ negated
    have hvalue := Expr.shows_param d (vs.length + 1)
    have hoffered := offered_run hw
    cases d with
    | duckdb =>
      cases hoffered
      have hname : Writes .duckdb [.function "LIST_CONTAINS"] [.operand "LIST_CONTAINS"] := by
        decide +kernel
      exact Expr.shows_call hname hcolumn (.cons hvalue .nil)
    | postgres =>
      cases hoffered
      have hname : Writes .postgres [.function "ANY"] [.operand "ANY"] := by decide +kernel
      exact Expr.shows_binary hvalue heq (Expr.shows_function hname hcolumn)
    | tsql | mysql | snowflake | sqlite => cases hoffered

/-! ## Demands -/

theorem demandIn_place (i : Nat) (case : LetterCase) (n : Nat) :
    (place case).demandIn i n = if i = 0 then (if case = .sensitive then n else 0) else 0 := by
  cases case with
  | sensitive => simp [place, Tree.demandIn, eq_comm]
  | insensitive => simp [place, Tree.demandIn]

theorem demandIn_denied (i : Nat) (negated : Bool) {t : Tree} (h : t.demandIn i 0 = 0)
    (h' : t.demandIn i 2 = 0) : (denied negated t).demandIn i 2 = 0 := by
  cases negated with
  | true => exact h
  | false => exact h'

/-- What the place of the column demands, and no other place. -/
theorem demand_shape (d : Dialect) (p : Predicate) (bound i : Nat) :
    (shape d p bound).demand i = if i = 0 then p.op.demand else 0 := by
  obtain ⟨path, op, values⟩ := p
  have hrow : ∀ (t : Tree) (texts : List Tree), (∀ u ∈ texts, ∃ text, u = .leaf text) →
      (row t texts).demandIn i 0 = t.demandIn i 0 := by
    intro t texts htexts
    refine demandIn_row (fun u hu => ?_) t
    obtain ⟨text, rfl⟩ := htexts u hu
    rfl
  cases op with
  | compare c =>
    show max ((Tree.hole 0).demandIn i arithmetic) 0 = _
    simp [Tree.demandIn, Operator.demand, eq_comm]
  | oneOf negated case =>
    show max ((place case).demandIn i arithmetic) (Tree.demandIn i 0 (row _ _)) = _
    rw [hrow _ _ (by simp), demandIn_place]
    cases case <;> simp [Tree.demandIn, Operator.demand]
  | between negated =>
    show max ((Tree.hole 0).demandIn i arithmetic) (max 0 0) = _
    simp [Tree.demandIn, Operator.demand, eq_comm]
  | find anchor case =>
    show max (max ((place case).demandIn i arithmetic) 0) 0 = _
    rw [demandIn_place]
    cases case <;> simp [Operator.demand]
  | isNull negated =>
    show max ((Tree.hole 0).demandIn i Precedence.comparison) 0 = _
    simp [Tree.demandIn, Operator.demand, eq_comm]
  | isEmpty negated =>
    have hsize : ∀ n, (Tree.binary (.call "COALESCE"
        (row (.call (if d = .postgres then "CARDINALITY" else "LEN") (.hole 0)) [.leaf "0"]))
        (.test false "=") (.leaf "0")).demandIn i n = 0 := by
      intro n
      show max (Tree.demandIn i 0 (row _ _)) 0 = 0
      rw [hrow _ _ (by simp), Nat.max_zero]
      exact ite_self 0
    show (denied negated _).demandIn i 2 = _
    rw [demandIn_denied i negated (hsize 0) (hsize 2)]
    exact (ite_self 0).symm
  | hasMember negated =>
    have hmember : ∀ n, (if d = .postgres
        then .binary (.leaf (d.placeholder (bound + 0 + 1))) (.test false "=")
          (.call "ANY" (.hole 0))
        else Tree.call "LIST_CONTAINS"
          (row (.hole 0) [.leaf (d.placeholder (bound + 0 + 1))])).demandIn i n = 0 := by
      intro n
      split
      · show max 0 ((Tree.hole 0).demandIn i 0) = 0
        simp [Tree.demandIn]
      · show Tree.demandIn i 0 (row _ _) = 0
        rw [hrow _ _ (by simp)]
        exact ite_self 0
    show (denied negated _).demandIn i 2 = _
    rw [demandIn_denied i negated (hmember 0) (hmember 2)]
    exact (ite_self 0).symm

theorem complete_place (case : LetterCase) : (place case).Grouped ∧ closed ≤ (place case).level := by
  cases case with
  | sensitive => exact ⟨trivial, Nat.le_refl _⟩
  | insensitive => exact ⟨trivial, Nat.le_refl _⟩

theorem complete_denied {t : Tree} (ht : t.Complete) (negated : Bool) :
    (denied negated t).Complete := by
  cases negated with
  | true => exact ⟨⟨Nat.le_of_ble_eq_true rfl, ht.1⟩, Nat.le_of_ble_eq_true rfl⟩
  | false => exact ht

theorem complete_shape (d : Dialect) (p : Predicate) (bound : Nat) :
    (shape d p bound).Complete := by
  obtain ⟨path, op, values⟩ := p
  have htwo : 2 ≤ Precedence.comparison := by decide
  have htest : ∀ (l r : Tree) (negated : Bool) (text : String), l.Grouped → closed ≤ l.level →
      r.Grouped → closed ≤ r.level → (Tree.binary l (.test negated text) r).Complete := by
    intro l r negated text hl hlevel hr hrlevel
    refine ⟨⟨⟨Nat.le_trans ?_ hlevel, hl⟩, Nat.le_trans ?_ hrlevel, hr⟩, ?_⟩
    · exact (Binary.test negated text).left_le_closed
    · exact (Binary.test negated text).right_le_closed
    · exact htwo
  cases op with
  | compare c => exact htest _ _ _ _ trivial (Nat.le_refl _) trivial (Nat.le_refl _)
  | oneOf negated case =>
    obtain ⟨hplace, hlevel⟩ := complete_place case
    refine htest _ _ _ _ hplace hlevel ?_ (Nat.le_refl _)
    refine @grouped_row (.leaf _) trivial _ fun u hu => ?_
    obtain ⟨i, -, rfl⟩ := List.mem_map.1 hu
    exact ⟨trivial, Nat.le_of_ble_eq_true rfl⟩
  | between negated =>
    have hleaf : arithmetic ≤ closed := by decide
    exact ⟨⟨⟨hleaf, trivial⟩, ⟨hleaf, trivial⟩, hleaf, trivial⟩, htwo⟩
  | find anchor case =>
    obtain ⟨hplace, hlevel⟩ := complete_place case
    have hlike := htest (place case) (.leaf (d.placeholder (bound + 0 + 1))) false "LIKE" hplace
      hlevel trivial (Nat.le_refl _)
    exact ⟨⟨⟨Nat.le_refl _, hlike.1⟩, Binary.escape.right_le_closed, trivial⟩, hlike.2⟩
  | isNull negated =>
    exact ⟨⟨⟨(Binary.is negated).left_le_closed, trivial⟩, (Binary.is negated).right_le_closed,
      trivial⟩, htwo⟩
  | isEmpty negated =>
    have hone : 1 ≤ closed := by decide
    have hsize : ∀ size,
        (Tree.call "COALESCE" (row (.call size (.hole 0)) [.leaf "0"])).Grouped := fun size =>
      @grouped_row (.call size (.hole 0)) trivial _ (List.forall_mem_singleton.2 ⟨trivial, hone⟩)
    exact complete_denied
      (htest _ (.leaf "0") false "=" (hsize _) (Nat.le_refl _) trivial (Nat.le_refl _)) negated
  | hasMember negated =>
    have hone : 1 ≤ closed := by decide
    refine complete_denied ?_ negated
    split
    · exact htest _ _ _ _ trivial (Nat.le_refl _) trivial (Nat.le_refl _)
    · exact ⟨@grouped_row (.hole 0) trivial _ (List.forall_mem_singleton.2 ⟨trivial, hone⟩),
        Nat.le_of_ble_eq_true rfl⟩

/-- A column is the operand of its test exactly if it binds as tightly as the test demands. -/
theorem read?_ofPredicate_iff {p : Predicate} (hp : p.NamesColumn)
    (ht : read? d (column.render d) = some t)
    (h : (ofPredicate d column p).run vs = .ok (e, vs')) :
    read? d (e.render d) = some ((shape d p vs.length).fill fun _ => t) ↔
      p.op.demand ≤ t.level := by
  have hgrouped : t.Grouped := (read?_eq_some.1 ht).2.1
  rw [Expr.read?_render_iff (shows_ofPredicate hp (Expr.shows_of_read? ht) h),
    Tree.complete_fill fun _ => hgrouped]
  constructor
  · rintro ⟨-, hdemand⟩
    simpa [demand_shape] using hdemand 0
  · intro hdemand
    refine ⟨complete_shape d p _, fun i => ?_⟩
    rw [demand_shape]
    split
    · exact hdemand
    · exact Nat.zero_le _

/-- A test that is written without its column is a truth value. -/
theorem render_ofPredicate {p : Predicate} (hp : ¬ p.NamesColumn)
    (h : (ofPredicate d column p).run vs = .ok (e, vs')) :
    e.render d = "1 = 0" ∨ e.render d = "1 = 1" := by
  obtain ⟨path, op, values⟩ := p
  simp only [Predicate.NamesColumn, not_forall, not_not] at hp
  obtain ⟨negated, case, rfl, rfl⟩ := hp
  unfold ofPredicate at h
  obtain ⟨es, _, hes, h⟩ := run_bind_ok h
  cases hes
  cases h
  cases negated with
  | false => exact .inl (Expr.render_raw d "1 = 0")
  | true => exact .inr (Expr.render_raw d "1 = 1")

end

end Condition

/-! ## Columns as operands -/

open Expansion

/-- A column is an operand exactly where it binds as tightly as the operators around it demand. Every
text that a formula stands for is made of texts of its own and those of its columns, and it is the
expression that the formula is for its columns exactly if each of them binds so at its place; and so
it is with a test and its column. -/
theorem columns_operands_iff {m : Model} (d : Dialect) (scope : Scope m) :
    (∀ path column arguments f,
      expandColumn ⟨d, false⟩ scope path column arguments none = .ok f →
      ∃ t c given u ps, tableAt scope.root path = .ok t ∧
        Model.Member.column? t column = some c ∧ Template.parse c.1.formula = .ok u ∧
        Denotes ⟨d, false⟩ scope ⟨t, path, some c, given, none⟩ u f.sql ps) ∧
    (∀ site u out ps, Denotes ⟨d, false⟩ scope site u out ps →
      ∃ first rest, Woven ⟨d, false⟩ scope site u first rest ∧ out = weave first rest) ∧
    (∀ site u first rest, Woven ⟨d, false⟩ scope site u first rest →
      (∃ ps, Denotes ⟨d, false⟩ scope site u (weave first rest) ps) ∧
      ∀ t (ts : List Tree), Spaced d first rest → (outline? d 0 first rest).bind parse? = some t →
        rest.map (read? d ·.1) = ts.map some →
        (read? d (weave first rest) = some (t.fill fun i => ts.getD i .star) ↔
          ∀ i u, ts[i]? = some u → t.demand i ≤ u.level)) ∧
    (∀ p column t vs e vs', read? d (column.render d) = some t →
      (Condition.ofPredicate d column p).run vs = .ok (e, vs') →
      (p.NamesColumn →
        (read? d (e.render d) = some ((Condition.shape d p vs.length).fill fun _ => t) ↔
          p.op.demand ≤ t.level)) ∧
      (¬ p.NamesColumn → e.render d = "1 = 0" ∨ e.render d = "1 = 1")) := by
  refine ⟨?_, ?_, ?_, ?_⟩
  · exact fun path column arguments f h => denotes_of_expandColumn h
  · exact fun site u out ps h => exists_woven h
  · intro site u first rest hwoven
    exact ⟨hwoven.denotes, fun t ts hspaced ht hts => read?_weave_iff hspaced ht hts⟩
  · intro p column t vs e vs' ht hrun
    exact ⟨fun hp => Condition.read?_ofPredicate_iff hp ht hrun,
      fun hp => Condition.render_ofPredicate hp hrun⟩

/-! ## Strikers -/

/-- Strikers with what they score and what is taken off for their cards. -/
def strikers : Table where
  name := "strikers"
  source := .physical none "strikers"
  columns := [
    { name := "total", formula := "\x7b\x7b$goals\x7d\x7d + \x7b\x7b$assists\x7d\x7d"
      kind := .dimension },
    { name := "ahead", formula := "\x7b\x7btotal\x7d\x7d > \x7b\x7b$target\x7d\x7d"
      kind := .dimension },
    { name := "doubled", formula := "\x7b\x7btotal\x7d\x7d * 2", kind := .dimension },
    { name := "penalty", formula := "-\x7b\x7b$cards\x7d\x7d", kind := .dimension },
    { name := "balance", formula := "\x7b\x7b$points\x7d\x7d -\x7b\x7bpenalty\x7d\x7d"
      kind := .dimension }]

/-- The model of the strikers. -/
def finalDay : Model where
  tables := [strikers]

/-- The strikers in their model. -/
def finalDayStrikers : finalDay.Member := ⟨strikers, List.mem_cons_self⟩

/-- The strikers without arguments. -/
def finalScope : Scope finalDay :=
  Scope.of finalDayStrikers .empty

/-- Where formulas of the strikers are read. -/
def finalSite : Site finalDay :=
  ⟨finalDayStrikers, [], none, .empty, none⟩

/-- What the total expands to. -/
def totalText : String :=
  "\"strikers\".\"goals\" + \"strikers\".\"assists\""

/-- A column of the strikers as it is read. -/
def strikersColumn (name : String) : Tree :=
  .binary (.leaf "\"strikers\"") (.joint ".") (.leaf name)

/-- The total as it is read. -/
def totalTree : Tree :=
  .binary (strikersColumn "\"goals\"") (.sum "+") (strikersColumn "\"assists\"")

/-- The total in front of other text. -/
theorem woven_total {u : Template} {text : String} {ps : List JoinPath}
    (hplain : u.all (!·.isColumn) = true)
    (h : Denotes ⟨.sqlite, false⟩ finalScope finalSite u text ps) :
    Woven ⟨.sqlite, false⟩ finalScope finalSite (.reference [] (.logical "total") :: u) ""
      [(totalText, text)] := by
  have htotal : expandColumn ⟨.sqlite, false⟩ finalScope [] "total" .empty none =
      .ok ⟨totalText, []⟩ := by
    decide +kernel
  obtain ⟨_, ⟨t, reached, qs, hleads, hexpands, -⟩, -⟩ := expandColumn_standsFor htotal
  cases hleads
  exact .place rfl (.logical .here hexpands .done) (.text hplain h)

/-- What follows the total in a formula. -/
def targetText : String :=
  " > \"strikers\".\"target\""

/-- Strikers with more than ten. -/
def prolific : Predicate where
  column := { column := "total" }
  op := .compare .gt
  values := [.int 10]

/-- A sum is compared as a whole. -/
theorem columns_operands_iff_ahead :
    expandColumn ⟨.sqlite, false⟩ finalScope [] "ahead" .empty none =
      .ok ⟨weave "" [(totalText, targetText)], []⟩ ∧
    read? .sqlite totalText = some totalTree ∧
    read? .sqlite (weave "" [(totalText, targetText)]) =
      some (.binary totalTree (.test false ">") (strikersColumn "\"target\"")) ∧
    (Condition.ofPredicate .sqlite (.raw totalText) prolific).run [] =
      .ok (.binary (.raw totalText) .gt (.param 1), [.int 10]) ∧
    read? .sqlite ((Expr.binary (.raw totalText) .gt (.param 1)).render .sqlite) =
      some (.binary totalTree (.test false ">") (.leaf "?")) := by
  obtain ⟨-, -, hformulas, htests⟩ := columns_operands_iff .sqlite finalScope
  have htotal : read? .sqlite totalText = some totalTree := by decide +kernel
  have htarget : Denotes ⟨.sqlite, false⟩ finalScope finalSite
      [.literal " > ", .reference [] (.physical "target")] targetText [[]] := by
    have h : Denotes ⟨.sqlite, false⟩ finalScope finalSite
        [.literal " > ", .reference [] (.physical "target")] _ [[]] :=
      .literal (.physical .here .done)
    have htext : " > " ++ (Dialect.sqlite.quoteName (aliasFor .sqlite finalScope.root.1 []) ++
        "." ++ Dialect.sqlite.quoteName "target" ++ "") = targetText := by
      decide +kernel
    exact htext ▸ h
  have hahead := (hformulas _ _ _ _ (woven_total rfl htarget)).2
    (.binary (.hole 0) (.test false ">") (strikersColumn "\"target\"")) [totalTree]
    (by decide +kernel) (by decide +kernel) (by simp [htotal])
  have hnames : prolific.NamesColumn := fun negated case hop => by cases hop
  have hrun : (Condition.ofPredicate .sqlite (.raw totalText) prolific).run [] =
      .ok (.binary (.raw totalText) .gt (.param 1), [.int 10]) := rfl
  have hprolific := (htests prolific (.raw totalText) totalTree [] _ _
    (by rw [Expr.render_raw, htotal]) hrun).1 hnames
  refine ⟨by decide +kernel, htotal, hahead.2 ?_, hrun, hprolific.2 ?_⟩
  · intro i u hu
    cases i with
    | zero =>
      cases hu
      decide +kernel
    | succ i => cases hu
  · decide +kernel

/-- In every formula columns are the operands that they are when names stand for them. -/
def Model.KeepsOperands (m : Model) (d : Dialect) : Prop :=
  ∀ (scope : Scope m) site u first rest t (ts : List Tree),
    Woven ⟨d, false⟩ scope site u first rest → (outline? d 0 first rest).bind parse? = some t →
    rest.map (read? d ·.1) = ts.map some →
    read? d (weave first rest) = some (t.fill fun i => ts.getD i .star)

/-- Of a sum only the second part is doubled, and two signs in a row begin a comment. -/
theorem operands_split_strikers :
    Model.build finalDay.tables = .ok finalDay ∧
    read? .sqlite totalText = some totalTree ∧
    expandColumn ⟨.sqlite, false⟩ finalScope [] "doubled" .empty none =
      .ok ⟨"\"strikers\".\"goals\" + \"strikers\".\"assists\" * 2", []⟩ ∧
    read? .sqlite "\"strikers\".\"goals\" + \"strikers\".\"assists\" * 2" =
      some (.binary (strikersColumn "\"goals\"") (.sum "+")
        (.binary (strikersColumn "\"assists\"") (.product "*") (.leaf "2"))) ∧
    expandColumn ⟨.sqlite, false⟩ finalScope [] "balance" .empty none =
      .ok ⟨"\"strikers\".\"points\" --\"strikers\".\"cards\"", []⟩ ∧
    read? .sqlite "\"strikers\".\"points\" --\"strikers\".\"cards\"" = none ∧
    ¬ finalDay.KeepsOperands .sqlite := by
  refine ⟨by decide +kernel, by decide +kernel, by decide +kernel, by decide +kernel,
    by decide +kernel, by decide +kernel, fun h => ?_⟩
  have hwoven := woven_total rfl
    (.literal .done : Denotes ⟨.sqlite, false⟩ finalScope finalSite [.literal " * 2"]
      (" * 2" ++ "") [])
  have hdoubled := h finalScope _ _ _ _ (.binary (.hole 0) (.product "*") (.leaf "2")) [totalTree]
    hwoven (by decide +kernel) (by decide +kernel)
  have hsplit : read? .sqlite (weave "" [(totalText, " * 2" ++ "")]) ≠
      some (.binary totalTree (.product "*") (.leaf "2")) := by
    decide +kernel
  exact hsplit hdoubled

end Rollup
