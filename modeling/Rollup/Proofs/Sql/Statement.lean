/-
The parameters of expressions and of statements. An expression carries those of its operands from
left to right; a statement those of its source, then of its conditions on rows, then of its
conditions on groups, for the clauses are written in this order.
-/
import Rollup.Proofs.Sql.Parameter
import Mathlib.Data.List.Forall2

namespace Rollup.Sql

section

variable {d : Dialect} {texts : List String} {ts us : List Token} {tss : List (List Token)}
  {ns ms : List Nat}

/-! ## Tokens in a row -/

/-- What follows a separator may carry nothing. -/
theorem Carries.append_plain {t : Token} (ht : Carries d texts ts ns) (hsep : Separates d t)
    (hu : Carries d texts us []) : Carries d texts (ts ++ t :: us) ns := by
  have h := ht.append hsep hu
  rwa [List.append_nil] at h

theorem Carries.snoc {t : Token} (ht : Carries d texts ts ns) (hsep : Separates d t) :
    Carries d texts (ts ++ [t]) ns :=
  ht.append_plain hsep (carries_nil d)

theorem Carries.word (w : Keyword) (hu : Carries d texts us ms) :
    Carries d texts (.word w :: .space :: us) ms :=
  (carries_word d w).append (separates_space d) hu

theorem Carries.parens (ht : Carries d texts ts ns) :
    Carries d texts ([.sym .lparen] ++ ts ++ [.sym .rparen]) ns :=
  (Carries.cons (separates_sym d .lparen) ht).snoc (separates_sym d .rparen)

theorem carries_sym (d : Dialect) (s : Symbol) : Carries d texts [.sym s] [] :=
  (carries_nil d).cons (separates_sym d s)

/-- Texts that carry these parameters one after the other. -/
def CarriesAll (d : Dialect) (texts : List String) (tss : List (List Token)) (ns : List Nat) :
    Prop :=
  ∃ nss, List.Forall₂ (Carries d texts) tss nss ∧ nss.flatten = ns

theorem CarriesAll.nil (d : Dialect) : CarriesAll d texts [] [] := ⟨[], .nil, rfl⟩

theorem CarriesAll.nil_inv (h : CarriesAll d texts [] ns) : ns = [] := by
  obtain ⟨nss, htss, rfl⟩ := h
  cases htss
  rfl

theorem CarriesAll.cons (ht : Carries d texts ts ns) (h : CarriesAll d texts tss ms) :
    CarriesAll d texts (ts :: tss) (ns ++ ms) := by
  obtain ⟨nss, htss, rfl⟩ := h
  exact ⟨ns :: nss, .cons ht htss, rfl⟩

theorem CarriesAll.cons_inv (h : CarriesAll d texts (ts :: tss) ns) :
    ∃ ms ks, Carries d texts ts ms ∧ CarriesAll d texts tss ks ∧ ns = ms ++ ks := by
  obtain ⟨nss, htss, rfl⟩ := h
  obtain _ | ⟨ht, htss⟩ := htss
  exact ⟨_, _, ht, ⟨_, htss, rfl⟩, rfl⟩

theorem CarriesAll.singleton (ht : Carries d texts ts ns) : CarriesAll d texts [ts] ns := by
  have h := CarriesAll.cons ht (.nil d)
  rwa [List.append_nil] at h

theorem CarriesAll.append {uss : List (List Token)} (ht : CarriesAll d texts tss ns)
    (hu : CarriesAll d texts uss ms) : CarriesAll d texts (tss ++ uss) (ns ++ ms) := by
  obtain ⟨nss, htss, rfl⟩ := ht
  obtain ⟨mss, huss, rfl⟩ := hu
  exact ⟨nss ++ mss, List.rel_append htss huss, List.flatten_append⟩

theorem CarriesAll.of_forall (h : ∀ ts ∈ tss, Carries d texts ts []) :
    CarriesAll d texts tss [] := by
  induction tss with
  | nil => exact .nil d
  | cons ts tss ih =>
    exact .cons (h ts List.mem_cons_self) (ih fun us hu => h us (List.mem_cons_of_mem _ hu))

theorem CarriesAll.commaSeparated (h : CarriesAll d texts tss ns) :
    Carries d texts (commaSeparated tss) ns := by
  obtain ⟨nss, htss, rfl⟩ := h
  induction htss with
  | nil => exact carries_nil d
  | cons ht hrest ih =>
    cases hrest with
    | nil =>
      rw [List.flatten_cons, List.flatten_nil, List.append_nil]
      exact ht
    | cons hu hrest =>
      have := ht.append (separates_sym d .comma) (ih.cons (separates_space d))
      simpa only [Sql.commaSeparated, List.append_assoc, List.cons_append, List.nil_append,
        List.flatten_cons] using this

/-- The functions that statements call. -/
def functionNames : List String :=
  ["SUM", "AVG", "MIN", "MAX", "COUNT", "LOWER", "LIST_CONTAINS", "ANY", "COALESCE", "LEN",
    "CARDINALITY"]

theorem carries_function (d : Dialect) {f : String} (hf : f ∈ functionNames) :
    Carries d texts [.function f] [] := by
  have hall : ∀ f ∈ functionNames, (Text.upper f).toList.all isWordText = true := by
    decide +kernel
  exact carries_wordText rfl (List.all_eq_true.1 (hall f hf))

end

namespace Expr

section

variable {d : Dialect} {texts : List String} {e a b : Expr} {es : List Expr} {ns ms ks : List Nat}

/-! ## Expressions -/

theorem carries_column (d : Dialect) (table : Option String) (name : String) :
    Carries d texts (column table name).tokens [] := by
  cases table with
  | none => exact carries_name d name
  | some table =>
    exact (carries_name d table).append (separates_sym d .dot) (carries_name d name)

theorem carries_raw (d : Dialect) {sql : String} (h : sql ∈ texts) :
    Carries d texts (raw sql).tokens [] :=
  Sql.carries_raw d h

theorem carries_fixed (d : Dialect) {sql : String} (h : sql.toList.all isWordText = true) :
    Carries d texts (raw sql).tokens [] :=
  Sql.carries_fixed d h

theorem carries_operator (d : Dialect) (op : BinaryOp) : Carries d texts [op.token] [] := by
  cases op with
  | and | or => exact carries_word d _
  | _ => exact carries_sym d _

theorem carries_binary (ha : Carries d texts a.tokens ns) (op : BinaryOp)
    (hb : Carries d texts b.tokens ms) :
    Carries d texts (binary a op b).tokens (ns ++ ms) := by
  have := ha.append (separates_space d)
    ((carries_operator d op).append (separates_space d) hb)
  simpa only [tokens, List.append_assoc, List.cons_append, List.nil_append] using this

theorem carries_not (he : Carries d texts e.tokens ns) : Carries d texts (not e).tokens ns :=
  he.word .not

theorem carries_paren (he : Carries d texts e.tokens ns) : Carries d texts (paren e).tokens ns :=
  he.parens

theorem tokensOfAll_eq (es : List Expr) : tokensOfAll es = es.map tokens := by
  induction es with
  | nil => rfl
  | cons e es ih => rw [tokensOfAll, ih, List.map_cons]

theorem carries_call {f : String} (hf : f ∈ functionNames) (distinct : Bool)
    (h : CarriesAll d texts (es.map tokens) ns) :
    Carries d texts (call f distinct es).tokens ns := by
  have hargs : Carries d texts ((if distinct then [.word .distinct, .space] else []) ++
      Sql.commaSeparated (es.map tokens)) ns := by
    cases distinct with
    | true => exact h.commaSeparated.word .distinct
    | false => exact h.commaSeparated
  have := ((Sql.carries_function d hf).append (separates_sym d .lparen) hargs).snoc
    (separates_sym d .rparen)
  simpa only [tokens, tokensOfAll_eq, List.append_assoc, List.cons_append, List.nil_append]
    using this

theorem carries_function {f : String} (hf : f ∈ functionNames) (he : Carries d texts e.tokens ns) :
    Carries d texts (function f e).tokens ns :=
  carries_call hf false (.singleton he)

theorem carries_tuple (h : CarriesAll d texts (es.map tokens) ns) :
    Carries d texts (tuple es).tokens ns := by
  rw [tokens, tokensOfAll_eq]
  exact h.commaSeparated.parens

theorem carries_negation (he : Carries d texts e.tokens ns) (negated : Bool) :
    Carries d texts (e.tokens ++ negation negated) ns := by
  cases negated with
  | true => exact he.append_plain (separates_space d) (carries_word d .not)
  | false =>
    rw [negation, if_neg Bool.false_ne_true, List.append_nil]
    exact he

/-- A test against no values carries nothing: the column is not written either. -/
theorem carries_inList (he : Carries d texts e.tokens []) (negated : Bool)
    (h : CarriesAll d texts (es.map tokens) ns) :
    Carries d texts (inList e negated es).tokens ns := by
  cases es with
  | nil =>
    rw [h.nil_inv]
    refine Sql.carries_fixed d ?_
    cases negated <;> decide
  | cons v es =>
    have := (carries_negation he negated).append (separates_space d)
      ((carries_word d .in_).append (separates_space d) h.commaSeparated.parens)
    simpa only [tokens, tokensOfAll_eq, List.map_cons, List.append_assoc, List.cons_append,
      List.nil_append] using this

theorem carries_between (he : Carries d texts e.tokens ks) (negated : Bool)
    (ha : Carries d texts a.tokens ns) (hb : Carries d texts b.tokens ms) :
    Carries d texts (between e negated a b).tokens (ks ++ (ns ++ ms)) := by
  have := (carries_negation he negated).append (separates_space d)
    ((ha.append (separates_space d) (hb.word .and)).word .between)
  simpa only [tokens, List.append_assoc, List.cons_append, List.nil_append] using this

theorem carries_isNull (he : Carries d texts e.tokens ns) (negated : Bool) :
    Carries d texts (isNull e negated).tokens ns :=
  he.append_plain (separates_space d) (carries_word d _)

theorem carries_like (he : Carries d texts e.tokens ks) (negated : Bool)
    (ha : Carries d texts a.tokens ns) (escape : Char) :
    Carries d texts (like e negated a escape).tokens (ks ++ ns) := by
  have := (carries_negation he negated).append (separates_space d)
    ((ha.append_plain (separates_space d)
      ((carries_string d (String.singleton escape)).word .escape)).word .like)
  simpa only [tokens, List.append_assoc, List.cons_append, List.nil_append] using this

/-! ## Chains and functions -/

theorem carries_foldl_binary {op : BinaryOp} {f : Expr → Expr}
    (hf : ∀ {e : Expr} {ns : List Nat}, Carries d texts e.tokens ns →
      Carries d texts (f e).tokens ns)
    (ha : Carries d texts a.tokens ns) (h : CarriesAll d texts (es.map tokens) ms) :
    Carries d texts (es.foldl (fun acc e => binary acc op (f e)) a).tokens (ns ++ ms) := by
  induction es generalizing a ns ms with
  | nil =>
    rw [h.nil_inv, List.append_nil]
    exact ha
  | cons e es ih =>
    obtain ⟨ms, ks, he, hes, rfl⟩ := h.cons_inv
    rw [← List.append_assoc]
    exact ih (carries_binary ha op (hf he)) hes

/-- The expressions of a list that is put together, if there are any. -/
def CarriesOption (d : Dialect) (texts : List String) (e? : Option Expr) (ns : List Nat) : Prop :=
  CarriesAll d texts (e?.toList.map tokens) ns

theorem carries_any? (h : CarriesAll d texts (es.map tokens) ns) :
    CarriesOption d texts (any? es) ns := by
  cases es with
  | nil => exact h
  | cons e es =>
    obtain ⟨ms, ks, he, hes, rfl⟩ := h.cons_inv
    exact .singleton (carries_foldl_binary id he hes)

theorem carries_all? (h : CarriesAll d texts (es.map tokens) ns) :
    CarriesOption d texts (all? es) ns := by
  -- a disjunction is put into parentheses
  have hguard : ∀ {e : Expr} {ns : List Nat}, Carries d texts e.tokens ns →
      Carries d texts (if e.isDisjunction then paren e else e).tokens ns := by
    intro e ns he
    split
    · exact carries_paren he
    · exact he
  cases es with
  | nil => exact h
  | cons e es =>
    obtain ⟨ms, ks, he, hes, rfl⟩ := h.cons_inv
    exact .singleton (carries_foldl_binary hguard (hguard he) hes)

end

end Expr

/-! ## Clauses -/

section

variable {d : Dialect} {texts : List String} {ts us vs : List Token} {ns ms ks : List Nat}

/-- Tokens that may follow any others, since they begin with a separator if they begin at all. -/
def Trails (d : Dialect) (texts : List String) (us : List Token) (ms : List Nat) : Prop :=
  ∀ ts ns, Carries d texts ts ns → Carries d texts (ts ++ us) (ns ++ ms)

theorem Carries.trail (ht : Carries d texts ts ns) (hu : Trails d texts us ms) :
    Carries d texts (ts ++ us) (ns ++ ms) :=
  hu ts ns ht

theorem trails_nil (d : Dialect) : Trails d texts [] [] := by
  intro ts ns h
  rwa [List.append_nil, List.append_nil]

theorem trails_cons {t : Token} (hsep : Separates d t) (hu : Carries d texts us ms) :
    Trails d texts (t :: us) ms :=
  fun _ _ ht => ht.append hsep hu

theorem Trails.append (hu : Trails d texts us ms) (hv : Trails d texts vs ks) :
    Trails d texts (us ++ vs) (ms ++ ks) := by
  intro ts ns h
  rw [← List.append_assoc, ← List.append_assoc]
  exact (h.trail hu).trail hv

theorem carries_item {i : Item} (h : Carries d texts i.expr.tokens ns) :
    Carries d texts i.tokens ns := by
  obtain ⟨e, label⟩ := i
  cases label with
  | none =>
    rw [Item.tokens, List.append_nil]
    exact h
  | some label => exact h.append_plain (separates_space d) ((carries_name d label).word .as_)

theorem trails_selectList {items : List Item} (h : ∀ i ∈ items, Carries d texts i.expr.tokens []) :
    Trails d texts (selectList items) [] := by
  -- an item after the first stands behind a comma, and the first behind a line break
  have hrest : ∀ {rest : List Item}, (∀ i ∈ rest, Carries d texts i.expr.tokens []) →
      Trails d texts (rest.flatMap fun i => [.sym .comma, .newline, .indent 1] ++ i.tokens) [] := by
    intro rest hrest
    induction rest with
    | nil => exact trails_nil d
    | cons i rest ih =>
      have hi := carries_item (hrest i List.mem_cons_self)
      exact (trails_cons (separates_sym d .comma)
        ((hi.cons (separates_indent d)).cons (separates_newline d))).append
          (ih fun i' hi' => hrest i' (List.mem_cons_of_mem _ hi'))
  cases items with
  | nil => exact trails_nil d
  | cons i rest =>
    have hi := carries_item (h i List.mem_cons_self)
    exact (trails_cons (separates_newline d) (hi.cons (separates_indent d))).append
      (hrest fun i' hi' => h i' (List.mem_cons_of_mem _ hi'))

theorem trails_clause (w : Keyword) {tss : List (List Token)} (h : CarriesAll d texts tss ns) :
    Trails d texts (clause w tss) ns := by
  cases tss with
  | nil =>
    rw [h.nil_inv]
    exact trails_nil d
  | cons ts tss => exact trails_cons (separates_newline d) (h.commaSeparated.word w)

theorem trails_orderTokens {orders : List Order}
    (h : ∀ o ∈ orders, Carries d texts o.expr.tokens []) (paged : Bool) :
    Trails d texts (orderTokens d orders paged) [] := by
  have horders : CarriesAll d texts (orders.map Order.tokens) [] := by
    refine .of_forall fun ts hts => ?_
    obtain ⟨o, ho, rfl⟩ := List.mem_map.1 hts
    exact (h o ho).append_plain (separates_space d) (carries_word d _)
  cases orders with
  | nil =>
    rw [orderTokens]
    split
    · exact trails_cons (separates_newline d)
        ((Carries.parens ((carries_word d .null).word .select)).word .orderBy)
    · exact trails_nil d
  | cons o orders => exact trails_clause .orderBy horders

theorem carries_limitOffset (d : Dialect) (p : Page) : Carries d texts p.limitOffset [] := by
  have hcount : ∀ (w : Keyword) (n : UInt64), Carries d texts [.word w, .space, countToken n] [] :=
    fun w n => (carries_int d _).word w
  obtain ⟨limit, offset⟩ := p
  cases limit with
  | none =>
    cases offset with
    | none => exact carries_nil d
    | some offset => exact hcount .offset offset
  | some limit =>
    cases offset with
    | none => exact hcount .limit limit
    | some offset =>
      exact (hcount .limit limit).append (separates_space d) (hcount .offset offset)

theorem carries_page (d : Dialect) (p : Page) : Carries d texts (p.tokens d) [] := by
  have hrows : ∀ d' (n : UInt64), Carries d' texts [countToken n, .space, .word .rows] [] :=
    fun d' n => (carries_int d' _).append (separates_space d') (carries_word d' .rows)
  unfold Page.tokens
  split
  · cases p.limit with
    | none => exact (hrows _ _).word .offset
    | some n =>
      exact ((hrows _ _).word .offset).append (separates_space _)
        ((((carries_int _ _).append (separates_space _)
          ((carries_word _ .only).word .rows)).word .next).word .fetch)
  · exact ((carries_fixed _ (by decide)).append (separates_space _)
      ((carries_int _ _).word .offset)).word .limit
  · exact carries_limitOffset _ _

/-! ## Statements -/

theorem carries_source {relation : Relation} (h : Carries d texts (relation.tokens d) ns)
    (label : Option String) : Carries d texts (Source.tokens d ⟨relation, label⟩) ns := by
  cases label with
  | none =>
    rw [Source.tokens, List.append_nil]
    exact h
  | some label => exact h.append_plain (separates_space d) ((carries_name d label).word .as_)

theorem carries_query {s : Select} (h : Carries d texts (s.tokens d) ns) :
    Carries d texts ((Relation.query s).tokens d) ns := by
  have := ((h.cons (separates_newline d)).snoc (separates_newline d)).parens
  simpa only [Relation.tokens, List.append_assoc, List.cons_append, List.nil_append] using this

theorem carries_joined {type : JoinType} {source : Source} {on : Option Expr}
    (hsource : Carries d texts (source.tokens d) []) (hon : ∀ e ∈ on, Carries d texts e.tokens []) :
    Carries d texts (Joined.tokens d ⟨type, source, on⟩) [] := by
  have htype : Carries d texts type.tokens [] := by
    cases type with
    | full => exact (carries_word d .outer).word .full
    | inner | left | cross => exact carries_word d _
  have hhead := htype.append_plain (separates_space d) (hsource.word .join)
  cases on with
  | none =>
    simpa only [Joined.tokens, List.append_assoc, List.append_nil, List.cons_append,
      List.nil_append] using hhead
  | some e =>
    have := hhead.append_plain (separates_space d) ((hon e rfl).word .on)
    simpa only [Joined.tokens, List.append_assoc, List.cons_append, List.nil_append] using this

theorem trails_joinTokens {joins : List Joined} (h : ∀ j ∈ joins, Carries d texts (j.tokens d) []) :
    Trails d texts (joinTokens d joins) [] := by
  induction joins with
  | nil => exact trails_nil d
  | cons j joins ih =>
    exact (trails_cons (separates_newline d) (h j List.mem_cons_self)).append
      (ih fun j' hj => h j' (List.mem_cons_of_mem _ hj))

/-- What the parts of a statement carry: its source, its condition on rows and its condition on
groups have parameters, and nothing else has. -/
structure Select.Parts (d : Dialect) (texts : List String) (s : Select) (ns ms ks : List Nat) :
    Prop where
  items : ∀ i ∈ s.items, Carries d texts i.expr.tokens []
  source : CarriesAll d texts (s.source.toList.map (Source.tokens d)) ns
  joins : ∀ j ∈ s.joins, Carries d texts (j.tokens d) []
  condition : Expr.CarriesOption d texts s.condition ms
  groupBy : ∀ e ∈ s.groupBy, Carries d texts e.tokens []
  having : Expr.CarriesOption d texts s.having ks
  orderBy : ∀ o ∈ s.orderBy, Carries d texts o.expr.tokens []

theorem Select.Parts.carries {s : Select} (h : s.Parts d texts ns ms ks) :
    Carries d texts (s.tokens d) (ns ++ ms ++ ks) := by
  obtain ⟨items, distinct, source, joins, condition, groupBy, having, orderBy, page⟩ := s
  obtain ⟨hitems, hsource, hjoins, hcondition, hgroupBy, hhaving, horderBy⟩ := h
  have hdistinct : Trails d texts (if distinct then [.space, .word .distinct] else []) [] := by
    split
    · exact trails_cons (separates_space d) (carries_word d .distinct)
    · exact trails_nil d
  have hfrom : Trails d texts (sourceTokens d source) ns := by
    cases source with
    | none => rw [hsource.nil_inv]; exact trails_nil d
    | some s => exact trails_cons (separates_newline d) (hsource.commaSeparated.word .from_)
  have hgroups : CarriesAll d texts (groupBy.map Expr.tokens) [] := by
    refine .of_forall fun ts hts => ?_
    obtain ⟨e, he, rfl⟩ := List.mem_map.1 hts
    exact hgroupBy e he
  -- the clauses are written in this order, and those without parameters add nothing
  have hhead := ((((carries_word d .select).trail hdistinct).trail
    (trails_selectList hitems)).trail hfrom).trail (trails_joinTokens hjoins)
  have hrest := (((hhead.trail (trails_clause .where_ hcondition)).trail
    (trails_clause .groupBy hgroups)).trail (trails_clause .having hhaving)).trail
    (trails_orderTokens horderBy page.isSome)
  cases page with
  | none => simpa only [Select.tokens, List.append_nil, List.nil_append] using hrest
  | some p =>
    have hpage := hrest.trail (trails_cons (separates_newline d) (carries_page d p))
    simpa only [Select.tokens, List.append_nil, List.cons_append, List.nil_append] using hpage

end

end Rollup.Sql
