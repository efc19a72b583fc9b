/-
The trees of expressions that are put together from parts. Their tokens are apart from one another,
so the words and signs of an expression are those of its parts with those of its operator between
them. Nothing is put in parentheses on the way: whether the parts are the operands of the operator
when the text is read is another matter.
-/
import Rollup.Proofs.Sql.Parameter
import Rollup.Proofs.Sql.Places
import Rollup.Sql.Expr
import Mathlib.Data.List.Forall2

namespace Rollup.Sql

open Precedence

namespace Precedence

/-! ## Tokens -/

/-- The text of some tokens has these words and signs. -/
def Writes (d : Dialect) (ts : List Token) (xs : List Lexeme) : Prop :=
  Lexes d (render d ts).toList xs

instance (d : Dialect) (ts : List Token) (xs : List Lexeme) : Decidable (Writes d ts xs) :=
  inferInstanceAs (Decidable (Lexes _ _ _))

section

variable {d : Dialect} {ts us : List Token} {xs ys zs : List Lexeme}

theorem writes_nil (d : Dialect) : Writes d [] [] := rfl

theorem Writes.between (hts : Writes d ts xs) {t : Token} {c : Char}
    (ht : (t.render d).toList = [c]) (hc : alone? c = some zs) (hus : Writes d us ys) :
    Writes d (ts ++ t :: us) (xs ++ (zs ++ ys)) := by
  rw [Writes, toList_render] at *
  rw [List.flatMap_append, List.flatMap_cons, ht]
  exact Lexes.between hts hc hus

theorem Writes.space (hts : Writes d ts xs) (hus : Writes d us ys) :
    Writes d (ts ++ .space :: us) (xs ++ ys) :=
  hts.between (c := ' ') (by simp [Token.render]) rfl hus

theorem Writes.comma (hts : Writes d ts xs) (hus : Writes d us ys) :
    Writes d (ts ++ .sym .comma :: us) (xs ++ .separator "," :: ys) :=
  hts.between (c := ',') (by simp [Token.render, Symbol.text]) rfl hus

theorem Writes.opening (hts : Writes d ts xs) (hus : Writes d us ys) :
    Writes d (ts ++ .sym .lparen :: us) (xs ++ .opening .round :: ys) :=
  hts.between (c := '(') (by simp [Token.render, Symbol.text]) rfl hus

theorem Writes.closing (hts : Writes d ts xs) :
    Writes d (ts ++ [.sym .rparen]) (xs ++ [.closing .round]) :=
  hts.between (c := ')') (by simp [Token.render, Symbol.text]) rfl (writes_nil d)

end

/-- A placeholder is one operand. -/
theorem writes_param (d : Dialect) (n : Nat) :
    Writes d [.param n] [.operand (d.placeholder n)] := by
  obtain ⟨cs, hcs, htext⟩ := toList_placeholder d n
  have hmarker : Pending.begun d (marker d) = .word [marker d] ∧
      (marker d).toUpper ∉ keywords.filterMap (·.1.toList.head?) := by
    cases d <;> decide
  have hword : ∀ c ∈ cs, isWordChar c = true := fun c hc => by
    simp only [isWordChar, hcs c hc, Bool.true_or]
  have hoperand : wordLexeme (marker d :: cs) = .operand (d.placeholder n) := by
    have hnone : keywords.lookup (String.ofList ((marker d :: cs).map Char.toUpper)) = none := by
      rw [Option.eq_none_iff_forall_ne_some]
      intro x hx
      refine hmarker.2 (List.mem_filterMap.2 ⟨_, mem_of_lookup hx, ?_⟩)
      rw [String.toList_ofList, List.map_cons, List.head?_cons]
    rw [wordLexeme, hnone, Option.getD_none, ← htext, String.ofList_toList]
  rw [Writes, toList_render, List.flatMap_singleton, Token.render, htext, Lexes,
    Pending.lex?_of_none rfl, hmarker.1, Pending.lex?_word hword, List.singleton_append, hoperand]
  rfl

/-! ## Rows -/

/-- Expressions in a row with commas between them. -/
def row (t : Tree) (ts : List Tree) : Tree :=
  ts.foldl (fun acc u => .binary acc (.separator ",") u) t

theorem lexemes_row (t : Tree) (ts : List Tree) :
    (row t ts).lexemes = t.lexemes ++ ts.flatMap fun u => .separator "," :: u.lexemes := by
  induction ts generalizing t with
  | nil => simp [row]
  | cons u ts ih =>
    have hrow : row t (u :: ts) = row (.binary t (.separator ",") u) ts := rfl
    rw [hrow, ih]
    simp [Tree.lexemes, Binary.lexemes]

theorem fill_row (f : Nat → Tree) (t : Tree) (ts : List Tree) :
    (row t ts).fill f = row (t.fill f) (ts.map (·.fill f)) := by
  induction ts generalizing t with
  | nil => rfl
  | cons u ts ih => exact ih _

theorem grouped_row {t : Tree} (ht : t.Grouped) {ts : List Tree}
    (hts : ∀ u ∈ ts, u.Grouped ∧ 1 ≤ u.level) : (row t ts).Grouped := by
  induction ts generalizing t with
  | nil => exact ht
  | cons u ts ih =>
    obtain ⟨⟨hu, hlevel⟩, hts⟩ := List.forall_mem_cons.1 hts
    exact ih ⟨⟨Nat.zero_le _, ht⟩, hlevel, hu⟩ hts

theorem demandIn_row {i : Nat} {ts : List Tree} (hts : ∀ u ∈ ts, u.demandIn i 1 = 0) (t : Tree) :
    (row t ts).demandIn i 0 = t.demandIn i 0 := by
  induction ts generalizing t with
  | nil => rfl
  | cons u ts ih =>
    obtain ⟨hu, hts⟩ := List.forall_mem_cons.1 hts
    have hfirst : (Tree.binary t (.separator ",") u).demandIn i 0 =
        max (t.demandIn i 0) (u.demandIn i 1) := rfl
    rw [row, List.foldl_cons, ← row, ih hts, hfirst, hu, Nat.max_zero]

end Precedence

/-! ## Expressions -/

namespace Expr

/-- The text of an expression has the words and signs of a tree. -/
def Shows (d : Dialect) (e : Expr) (t : Tree) : Prop :=
  Writes d e.tokens t.lexemes

section

variable {d : Dialect} {e a b : Expr} {t u v : Tree}

theorem shows_of_read? (h : read? d (e.render d) = some t) : e.Shows d t :=
  (read?_eq_some.1 h).1

theorem shows_param (d : Dialect) (n : Nat) : (param n).Shows d (.leaf (d.placeholder n)) :=
  writes_param d n

theorem shows_paren (he : e.Shows d t) : (paren e).Shows d (.bracket .round t) :=
  (writes_nil d).opening he.closing

theorem shows_not (he : e.Shows d t) : (Expr.not e).Shows d (.unary .not t) := by
  have hnot : Writes d [.word .not] [.not] := by cases d <;> decide +kernel
  exact hnot.space he

theorem shows_binary {op : BinaryOp} {o : Binary} (ha : a.Shows d t)
    (hop : Writes d [op.token] o.lexemes) (hb : b.Shows d u) :
    (binary a op b).Shows d (.binary t o u) := by
  have h := ha.space (hop.space hb)
  simpa only [Shows, tokens, Tree.lexemes, List.append_assoc, List.cons_append,
    List.nil_append] using h

theorem writes_commaSeparated {es : List Expr} {ts : List Tree} (he : e.Shows d t)
    (hes : List.Forall₂ (Shows d) es ts) :
    Writes d (commaSeparated (tokensOfAll (e :: es))) (row t ts).lexemes := by
  rw [lexemes_row]
  induction hes generalizing e t with
  | nil =>
    rw [List.flatMap_nil, List.append_nil]
    exact he
  | cons ha _ ih =>
    have h := he.comma ((writes_nil d).space (ih ha))
    simpa only [commaSeparated, tokensOfAll, List.flatMap_cons, List.append_assoc,
      List.cons_append, List.nil_append] using h

theorem shows_call {f : String} {name : String} {es : List Expr} {ts : List Tree}
    (hname : Writes d [.function f] [.operand name]) (he : e.Shows d t)
    (hes : List.Forall₂ (Shows d) es ts) :
    (call f false (e :: es)).Shows d (.call name (row t ts)) := by
  have h := hname.opening (writes_commaSeparated he hes).closing
  simpa only [Shows, tokens, Tree.lexemes, Bool.false_eq_true, if_false, List.append_assoc,
    List.cons_append, List.nil_append] using h

theorem shows_function {f name : String} (hname : Writes d [.function f] [.operand name])
    (he : e.Shows d t) : (function f e).Shows d (.call name t) :=
  shows_call hname he .nil

/-- The word `NOT` in front of an operator. -/
theorem writes_negated (he : e.Shows d t) (negated : Bool) {ts : List Token} {xs : List Lexeme}
    (h : Writes d ts xs) :
    Writes d (e.tokens ++ negation negated ++ .space :: ts)
      (t.lexemes ++ (Precedence.negation negated ++ xs)) := by
  have hnot : Writes d [.word .not] [.not] := by cases d <;> decide +kernel
  cases negated with
  | false => simpa [negation, Precedence.negation] using he.space h
  | true =>
    have hboth := he.space (hnot.space h)
    simpa only [negation, Precedence.negation, if_true, List.append_assoc, List.cons_append,
      List.nil_append] using hboth

theorem shows_inList {es : List Expr} {ts : List Tree} (ha : a.Shows d u) (negated : Bool)
    (he : e.Shows d t) (hes : List.Forall₂ (Shows d) es ts) :
    (inList a negated (e :: es)).Shows d
      (.binary u (.test negated "IN") (.bracket .round (row t ts))) := by
  have hin : Writes d [.word .in_] [.test "IN"] := by cases d <;> decide +kernel
  have hlist := (writes_nil d).opening (writes_commaSeparated he hes).closing
  have h := writes_negated ha negated (hin.space hlist)
  simpa only [Shows, tokens, tokensOfAll, Tree.lexemes, Binary.lexemes, List.append_assoc,
    List.cons_append, List.nil_append] using h

theorem shows_between (he : e.Shows d t) (negated : Bool) (ha : a.Shows d u) (hb : b.Shows d v) :
    (between e negated a b).Shows d (.between negated t u v) := by
  have hbetween : Writes d [.word .between] [.between] := by cases d <;> decide +kernel
  have hand : Writes d [.word .and] [.and] := by cases d <;> decide +kernel
  have h := writes_negated he negated (hbetween.space (ha.space (hand.space hb)))
  simpa only [Shows, tokens, Tree.lexemes, List.append_assoc, List.cons_append,
    List.nil_append] using h

theorem shows_isNull (he : e.Shows d t) (negated : Bool) :
    (isNull e negated).Shows d (.binary t (.is negated) (.leaf "NULL")) := by
  have his : Writes d [.word (if negated then .isNotNull else .isNull)]
      ((Binary.is negated).lexemes ++ [.operand "NULL"]) := by
    cases negated <;> cases d <;> decide +kernel
  exact he.space his

theorem shows_like (he : e.Shows d t) (negated : Bool) (ha : a.Shows d u) {escape : Char}
    {text : String} (hescape : Writes d [.string (String.singleton escape)] [.operand text]) :
    (like e negated a escape).Shows d
      (.binary (.binary t (.test negated "LIKE") u) .escape (.leaf text)) := by
  have hlike : Writes d [.word .like] [.test "LIKE"] := by cases d <;> decide +kernel
  have hword : Writes d [.word .escape] [.escape] := by cases d <;> decide +kernel
  have h := writes_negated he negated (hlike.space (ha.space (hword.space hescape)))
  simpa only [Shows, tokens, Tree.lexemes, Binary.lexemes, List.append_assoc, List.cons_append,
    List.nil_append] using h

/-- The text of an expression is read as its tree exactly if the operators of the tree have the
operands they demand. -/
theorem read?_render_iff (h : e.Shows d t) : read? d (e.render d) = some t ↔ t.Complete := by
  rw [read?_eq_some]
  exact and_iff_right h

end

end Expr

end Rollup.Sql
