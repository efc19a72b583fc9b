/-
The texts that stand in expressions as they are: those of the model, and a few that are part of an
operator. Everything else in an expression is written from what is known about it.
-/
import Rollup.Proofs.Sql.Composed

namespace Rollup.Sql

/-- The texts among some tokens are some of these. -/
def TextsIn (texts : List String) (ts : List Token) : Prop :=
  ∀ sql, Token.raw sql ∈ ts → sql ∈ texts

section

variable {texts : List String} {ts us : List Token} {tss : List (List Token)}

@[simp] theorem textsIn_nil : TextsIn texts [] := fun _ h => (List.not_mem_nil h).elim

@[simp] theorem textsIn_cons {t : Token} :
    TextsIn texts (t :: ts) ↔ (∀ sql, t = .raw sql → sql ∈ texts) ∧ TextsIn texts ts := by
  simp only [TextsIn, List.mem_cons, or_imp, forall_and, eq_comm]

@[simp] theorem textsIn_append :
    TextsIn texts (ts ++ us) ↔ TextsIn texts ts ∧ TextsIn texts us := by
  simp only [TextsIn, List.mem_append, or_imp, forall_and]

theorem textsIn_commaSeparated (h : ∀ ts ∈ tss, TextsIn texts ts) :
    TextsIn texts (commaSeparated tss) := by
  induction tss with
  | nil => exact textsIn_nil
  | cons ts rest ih =>
    obtain ⟨hts, hrest⟩ := List.forall_mem_cons.1 h
    cases rest with
    | nil => exact hts
    | cons us rest =>
      have hall : TextsIn texts (commaSeparated (us :: rest)) := ih hrest
      simp [commaSeparated, hts, hall]

end

namespace Expr

variable {texts : List String}

/-- The texts of an expression are some of these. -/
abbrev TextsIn (texts : List String) (e : Expr) : Prop :=
  Sql.TextsIn texts e.tokens

variable {a b e low high pattern : Expr} {es : List Expr}

theorem textsIn_raw {sql : String} (h : sql ∈ texts) : (raw sql).TextsIn texts := by
  show Sql.TextsIn texts [.raw sql]
  simpa using h

theorem textsIn_column (table : Option String) (name : String) :
    (column table name).TextsIn texts := by
  cases table with
  | none =>
    show Sql.TextsIn texts [.name name]
    simp
  | some table =>
    show Sql.TextsIn texts [.name table, .sym .dot, .name name]
    simp

theorem textsIn_param (n : Nat) : (param n).TextsIn texts := by
  show Sql.TextsIn texts [.param n]
  simp

theorem textsIn_star : star.TextsIn texts := by
  show Sql.TextsIn texts [.sym .star]
  simp

theorem textsIn_binary (ha : a.TextsIn texts) (op : BinaryOp) (hb : b.TextsIn texts) :
    (binary a op b).TextsIn texts := by
  have hop : ∀ sql, op.token ≠ .raw sql := by
    intro sql
    cases op <;> exact Token.noConfusion
  show Sql.TextsIn texts (a.tokens ++ [.space, op.token, .space] ++ b.tokens)
  simp [ha, hb, hop]

theorem textsIn_not (he : e.TextsIn texts) : (not e).TextsIn texts := by
  show Sql.TextsIn texts ([.word .not, .space] ++ e.tokens)
  simp [he]

theorem textsIn_paren (he : e.TextsIn texts) : (paren e).TextsIn texts := by
  show Sql.TextsIn texts ([.sym .lparen] ++ e.tokens ++ [.sym .rparen])
  simp [he]

theorem textsIn_tokensOfAll (h : ∀ e ∈ es, e.TextsIn texts) :
    ∀ ts ∈ tokensOfAll es, Sql.TextsIn texts ts := by
  induction es with
  | nil => exact fun ts hts => (List.not_mem_nil hts).elim
  | cons e es ih =>
    obtain ⟨he, hes⟩ := List.forall_mem_cons.1 h
    exact List.forall_mem_cons.2 ⟨he, ih hes⟩

theorem textsIn_call (f : String) (distinct : Bool) (h : ∀ e ∈ es, e.TextsIn texts) :
    (call f distinct es).TextsIn texts := by
  have hargs := textsIn_commaSeparated (textsIn_tokensOfAll h)
  show Sql.TextsIn texts ([.function f, .sym .lparen] ++
    (if distinct then [.word .distinct, .space] else []) ++ commaSeparated (tokensOfAll es) ++
      [.sym .rparen])
  cases distinct <;> simp [hargs]

theorem textsIn_function (f : String) (he : e.TextsIn texts) : (function f e).TextsIn texts :=
  textsIn_call f false (List.forall_mem_singleton.2 he)

theorem textsIn_tuple (h : ∀ e ∈ es, e.TextsIn texts) : (tuple es).TextsIn texts := by
  have hargs := textsIn_commaSeparated (textsIn_tokensOfAll h)
  show Sql.TextsIn texts ([.sym .lparen] ++ commaSeparated (tokensOfAll es) ++ [.sym .rparen])
  simp [hargs]

theorem textsIn_negation (negated : Bool) : Sql.TextsIn texts (negation negated) := by
  cases negated with
  | true =>
    show Sql.TextsIn texts [.space, .word .not]
    simp
  | false => exact textsIn_nil

theorem textsIn_inList (hfixed : fixedTexts ⊆ texts) (he : e.TextsIn texts) (negated : Bool)
    (h : ∀ v ∈ es, v.TextsIn texts) : (inList e negated es).TextsIn texts := by
  cases es with
  | nil =>
    refine textsIn_raw (hfixed ?_)
    cases negated <;> decide
  | cons v vs =>
    have hvalues : Sql.TextsIn texts (commaSeparated (v.tokens :: tokensOfAll vs)) :=
      textsIn_commaSeparated (textsIn_tokensOfAll h)
    have hnot : Sql.TextsIn texts (negation negated) := textsIn_negation negated
    show Sql.TextsIn texts (e.tokens ++ negation negated ++
      [.space, .word .in_, .space, .sym .lparen] ++ commaSeparated (v.tokens :: tokensOfAll vs) ++
        [.sym .rparen])
    simp [he, hnot, hvalues]

theorem textsIn_between (he : e.TextsIn texts) (negated : Bool) (hlow : low.TextsIn texts)
    (hhigh : high.TextsIn texts) : (between e negated low high).TextsIn texts := by
  have hnot : Sql.TextsIn texts (negation negated) := textsIn_negation negated
  show Sql.TextsIn texts (e.tokens ++ negation negated ++ [.space, .word .between, .space] ++
    low.tokens ++ [.space, .word .and, .space] ++ high.tokens)
  simp [he, hnot, hlow, hhigh]

theorem textsIn_isNull (he : e.TextsIn texts) (negated : Bool) :
    (isNull e negated).TextsIn texts := by
  show Sql.TextsIn texts (e.tokens ++ [.space, .word (if negated then .isNotNull else .isNull)])
  simp [he]

theorem textsIn_like (he : e.TextsIn texts) (negated : Bool) (hpattern : pattern.TextsIn texts)
    (escape : Char) : (like e negated pattern escape).TextsIn texts := by
  have hnot : Sql.TextsIn texts (negation negated) := textsIn_negation negated
  show Sql.TextsIn texts (e.tokens ++ negation negated ++ [.space, .word .like, .space] ++
    pattern.tokens ++
      [.space, .word .escape, .space, .string (String.singleton escape)])
  simp [he, hnot, hpattern]

/-- What is made of expressions whose texts are some of these has no other texts. -/
theorem composes_textsIn (hfixed : fixedTexts ⊆ texts) : Composes (TextsIn texts) where
  param := textsIn_param
  fixed h := textsIn_raw (hfixed h)
  binary := textsIn_binary
  not := textsIn_not
  paren := textsIn_paren
  call f distinct _ := textsIn_call f distinct
  inList he negated _ := textsIn_inList hfixed he negated
  between := textsIn_between
  isNull := textsIn_isNull
  like := textsIn_like

end Expr

end Rollup.Sql
