/-
The grouping of filters. A filter is written without regard to precedence: parentheses stand around
an `OR` under an `AND` and behind every `NOT`, and nowhere else. That is enough. Reading the tokens
by the standard precedence, with the tests as operands that are not looked into, leads back to an
expression that is true, false or unknown when the filter is.

Which tokens are tests and which connect them is no choice: a test has a token that connects nothing,
so the tokens are cut in one way only.
-/
import Rollup.Compile.Condition
import Rollup.Proofs.Compile.Texts
import Rollup.Proofs.Filter.Truth
import Rollup.Proofs.Sql.Precedence
import Mathlib.Data.Option.NAry

namespace Rollup

namespace Truth

@[simp] theorem no_or (a : Truth) : no.or a = a := by cases a <;> rfl

@[simp] theorem or_no (a : Truth) : a.or no = a := by cases a <;> rfl

theorem or_assoc (a b c : Truth) : (a.or b).or c = a.or (b.or c) := by
  cases a <;> cases b <;> cases c <;> rfl

/-- Two truths, connected by `and` or by `or`. -/
def link (ands : Bool) (a b : Truth) : Truth :=
  if ands then a.and b else a.or b

theorem link_assoc (ands : Bool) (a b c : Truth) :
    link ands (link ands a b) c = link ands a (link ands b c) := by
  cases ands with
  | true => exact and_assoc a b c
  | false => exact or_assoc a b c

/-- The truth of a chain of `and`s, or of `or`s. -/
def chain (ands : Bool) (xs : List Truth) : Truth :=
  xs.foldr (link ands) (if ands then yes else no)

@[simp] theorem link_chain_nil (ands : Bool) (a : Truth) : link ands a (chain ands []) = a := by
  cases ands <;> simp [link, chain]

@[simp] theorem chain_cons (ands : Bool) (x : Truth) (xs : List Truth) :
    chain ands (x :: xs) = link ands x (chain ands xs) := rfl

theorem chain_append (ands : Bool) (xs ys : List Truth) :
    chain ands (xs ++ ys) = link ands (chain ands xs) (chain ands ys) := by
  induction xs with
  | nil => cases ands <;> simp [link, chain]
  | cons x xs ih => rw [List.cons_append, chain_cons, chain_cons, ih, link_assoc]

end Truth

namespace Sql.Precedence

/-- The place that is yet to be written. -/
def Lexeme.place? : Lexeme → Option Nat
  | hole i => some i
  | _ => none

namespace Tree

/-- The places of an expression from left to right. -/
def places (t : Tree) : List Nat :=
  t.lexemes.filterMap Lexeme.place?

/-- The truth of an expression whose places have the given truth. It has none where anything else is
an operand, or what is applied is no connective. -/
def truth? (v : Nat → Option Truth) : Tree → Option Truth
  | hole i => v i
  | bracket .round t => t.truth? v
  | unary .not t => (t.truth? v).map Truth.not
  | binary l .and r => Option.map₂ Truth.and (l.truth? v) (r.truth? v)
  | binary l .or r => Option.map₂ Truth.or (l.truth? v) (r.truth? v)
  | _ => none

@[simp] theorem places_bracket (b : Bracket) (t : Tree) : (bracket b t).places = t.places := by
  simp [places, lexemes, List.filterMap_cons, Lexeme.place?]

@[simp] theorem places_not (t : Tree) : (unary .not t).places = t.places := by
  simp [places, lexemes, Unary.lexeme, List.filterMap_cons, Lexeme.place?]

theorem places_binary (l r : Tree) (o : Binary) (ho : o.lexemes.filterMap Lexeme.place? = []) :
    (binary l o r).places = l.places ++ r.places := by
  simp [places, lexemes, ho]

end Tree

end Sql.Precedence

namespace Condition

open Sql Sql.Precedence

/-! ## Tokens with tests among them -/

/-- A predicate and what it is written as. -/
structure Printed where
  predicate : Predicate
  expr : Expr

/-- Writes a predicate on its column, and keeps both. -/
def print (d : Dialect) (column : Predicate → Except CompileError Expr) (p : Predicate) :
    Binding Printed := do
  let e ← column p
  return ⟨p, ← ofPredicate d e p⟩

/-- What connects tests, by the part it plays. -/
def connective? : Token → Option (List Lexeme)
  | .space => some []
  | .word .and => some [.and]
  | .word .or => some [.or]
  | .word .not => some [.not]
  | .sym .lparen => some [.opening .round]
  | .sym .rparen => some [.closing .round]
  | _ => none

/-- Words and signs that tokens are read as when each test is a single operand. -/
inductive Outlines (tests : List Printed) : List Token → List Lexeme → Prop
  | done : Outlines tests [] []
  | connective {t ts w xs} (ht : connective? t = some w) (h : Outlines tests ts xs) :
    Outlines tests (t :: ts) (w ++ xs)
  | test {i t ts xs} (ht : tests[i]? = some t) (h : Outlines tests ts xs) :
    Outlines tests (t.expr.tokens ++ ts) (.hole i :: xs)

/-- The tokens are read so that each test is an operand once, the first one first. -/
def OutlinesAll (tests : List Printed) (ts : List Token) (xs : List Lexeme) : Prop :=
  Outlines tests ts xs ∧ xs.filterMap Lexeme.place? = List.range tests.length

section

variable {tests : List Printed} {ts us : List Token} {xs ys : List Lexeme}

theorem Outlines.append (hts : Outlines tests ts xs) (hus : Outlines tests us ys) :
    Outlines tests (ts ++ us) (xs ++ ys) := by
  induction hts with
  | done => exact hus
  | connective ht _ ih =>
    rw [List.append_assoc]
    exact .connective ht ih
  | test ht _ ih =>
    rw [List.append_assoc]
    exact .test ht ih

/-! ## The only way to cut -/

/-- How many tokens that connect stand in front. -/
def lead (ts : List Token) : Nat :=
  (ts.takeWhile fun t => (connective? t).isSome).length

theorem lead_connective {t : Token} (ht : connective? t = some ys) (ts : List Token) :
    lead (t :: ts) = lead ts + 1 := by
  rw [lead, List.takeWhile_cons_of_pos (by rw [ht]; rfl)]
  rfl

theorem lead_append (h : ∃ t ∈ ts, connective? t = none) (us : List Token) :
    lead (ts ++ us) = lead ts := by
  induction ts with
  | nil =>
    obtain ⟨t, ht, -⟩ := h
    cases ht
  | cons x ts ih =>
    cases hx : connective? x with
    | none =>
      simp [lead, hx]
    | some ys =>
      obtain ⟨t, ht, hnone⟩ := h
      have hrest : ∃ t ∈ ts, connective? t = none := by
        rcases List.mem_cons.1 ht with rfl | ht
        · cases hx.symm.trans hnone
        · exact ⟨t, ht, hnone⟩
      rw [List.cons_append, lead_connective hx, lead_connective hx, ih hrest]

theorem place?_of_connective? {t : Token} (ht : connective? t = some ys) :
    ys.filterMap Lexeme.place? = [] := by
  unfold connective? at ht
  split at ht <;> cases ht <;> rfl

/-- In front of the first test may stand more than belongs to it, but not less. -/
theorem Outlines.lead_le (htests : ∀ t ∈ tests, ∃ x ∈ t.expr.tokens, connective? x = none)
    (h : Outlines tests ts xs) {i : Nat} {is : List Nat} {t : Printed}
    (hplaces : xs.filterMap Lexeme.place? = i :: is) (ht : tests[i]? = some t) :
    lead t.expr.tokens ≤ lead ts := by
  induction h with
  | done => cases hplaces
  | @connective x ts ys xs hx _ ih =>
    rw [List.filterMap_append, place?_of_connective? hx, List.nil_append] at hplaces
    rw [lead_connective hx]
    exact Nat.le_succ_of_le (ih hplaces)
  | @test j t' ts xs ht' _ _ =>
    cases hplaces
    cases ht.symm.trans ht'
    rw [lead_append (htests t (List.mem_of_getElem? ht))]

theorem Outlines.unique (htests : ∀ t ∈ tests, ∃ x ∈ t.expr.tokens, connective? x = none)
    (h : Outlines tests ts xs) (h' : Outlines tests ts ys)
    (hplaces : xs.filterMap Lexeme.place? = ys.filterMap Lexeme.place?) : xs = ys := by
  -- a test and a connective never begin the same tokens
  have hclash : ∀ {i t x ts us zs xs ys}, tests[i]? = some t → connective? x = some zs →
      Outlines tests us ys → t.expr.tokens ++ ts = x :: us →
      (Lexeme.hole i :: xs).filterMap Lexeme.place? = (zs ++ ys).filterMap Lexeme.place? →
      False := by
    intro i t x ts us zs xs ys ht hx hus htokens hplaces
    rw [List.filterMap_append, place?_of_connective? hx, List.nil_append] at hplaces
    have hle := hus.lead_le htests hplaces.symm ht
    have hlead := congrArg lead htokens
    rw [lead_append (htests t (List.mem_of_getElem? ht)), lead_connective hx] at hlead
    omega
  induction h generalizing ys with
  | done =>
    generalize hts : ([] : List Token) = ts at h'
    cases h' with
    | done => rfl
    | connective _ _ => cases hts
    | @test i t us xs ht _ =>
      obtain ⟨x, hx, -⟩ := htests t (List.mem_of_getElem? ht)
      rw [(List.append_eq_nil_iff.1 hts.symm).1] at hx
      cases hx
  | @connective x ts zs xs hx h ih =>
    generalize hts : x :: ts = us at h'
    cases h' with
    | done => cases hts
    | @connective x' us zs' ys hx' h' =>
      cases hts
      cases hx.symm.trans hx'
      rw [List.filterMap_append, List.filterMap_append] at hplaces
      rw [ih h' (List.append_cancel_left hplaces)]
    | test ht h' => exact (hclash ht hx h hts.symm hplaces.symm).elim
  | @test i t ts xs ht h ih =>
    generalize hts : t.expr.tokens ++ ts = us at h'
    cases h' with
    | done =>
      obtain ⟨x, hx, -⟩ := htests t (List.mem_of_getElem? ht)
      rw [(List.append_eq_nil_iff.1 hts).1] at hx
      cases hx
    | connective hx h' => exact (hclash ht hx h' hts hplaces).elim
    | @test i' t' us ys ht' h' =>
      obtain ⟨rfl, hrest⟩ := List.cons.inj
        (hplaces : i :: xs.filterMap Lexeme.place? = i' :: ys.filterMap Lexeme.place?)
      cases ht.symm.trans ht'
      rw [ih (List.append_cancel_left hts ▸ h') hrest]

theorem Outlines.space (h : Outlines tests ts xs) : Outlines tests (.space :: ts) xs :=
  .connective (w := []) rfl h

theorem Outlines.between {w : Token} {zs : List Lexeme} (hts : Outlines tests ts xs)
    (hw : connective? w = some zs) (hus : Outlines tests us ys) :
    Outlines tests (ts ++ [.space, w, .space] ++ us) (xs ++ (zs ++ ys)) := by
  rw [List.append_assoc]
  exact hts.append (.space (.connective hw (.space hus)))

end

/-! ## Readings -/

/-- How an expression is read, and when it is true. -/
structure Reading where
  tree : Tree
  truth : (Predicate → Truth) → Truth

namespace Reading

/-- A reading in parentheses. -/
def enclosed (r : Reading) : Reading :=
  ⟨.bracket .round r.tree, r.truth⟩

/-- A reading that is denied. -/
def opposite (r : Reading) : Reading :=
  ⟨.unary .not r.tree, fun v => (r.truth v).not⟩

/-- Two readings under a connective. -/
def link (ands : Bool) (r r' : Reading) : Reading :=
  ⟨.binary r.tree (if ands then .and else .or) r'.tree,
    fun v => (r.truth v).link ands (r'.truth v)⟩

end Reading

/-- The truth of the tests, by their places. -/
def assigned (tests : List Printed) (v : Predicate → Truth) (i : Nat) : Option Truth :=
  tests[i]?.map (v ·.predicate)

/-- The tokens of an expression are those of a tree that the standard precedence groups as it is, and
whose truth is known. -/
structure Reads (tests : List Printed) (e : Expr) (r : Reading) : Prop where
  outlines : Outlines tests e.tokens r.tree.lexemes
  grouped : r.tree.Grouped
  truth : ∀ v, r.tree.truth? (assigned tests v) = some (r.truth v)

section

variable {tests : List Printed} {e e' : Expr} {r r' : Reading}

theorem Reads.place {i : Nat} {t : Printed} (ht : tests[i]? = some t) :
    Reads tests t.expr ⟨.hole i, fun v => v t.predicate⟩ := by
  refine ⟨?_, trivial, fun v => ?_⟩
  · have h := Outlines.test ht .done
    rwa [List.append_nil] at h
  · simp [Tree.truth?, assigned, ht]

theorem Reads.enclosed (h : Reads tests e r) : Reads tests (.paren e) r.enclosed := by
  have hclosing : Outlines tests [.sym .rparen] [.closing .round] :=
    .connective (w := [.closing .round]) rfl .done
  refine ⟨?_, h.grouped, h.truth⟩
  rw [Expr.tokens, List.append_assoc]
  exact .connective (w := [.opening .round]) rfl (h.outlines.append hclosing)

theorem Reads.opposite (h : Reads tests e r) (hlevel : Unary.not.level ≤ r.tree.level) :
    Reads tests (.not e) r.opposite := by
  refine ⟨?_, ⟨hlevel, h.grouped⟩, fun v => ?_⟩
  · rw [Expr.tokens]
    exact .connective (w := [.not]) rfl h.outlines.space
  · rw [Reading.opposite, Tree.truth?, h.truth v]
    rfl

/-- How tightly the first operand of a connective must bind. -/
def firstLevel (ands : Bool) : Nat :=
  (if ands then Binary.and else Binary.or).left

/-- How tightly a further operand of a connective must bind. -/
def nextLevel (ands : Bool) : Nat :=
  (if ands then Binary.and else Binary.or).right

theorem firstLevel_le_nextLevel (ands : Bool) : firstLevel ands ≤ nextLevel ands := by
  cases ands <;> decide

theorem nextLevel_le_not (ands : Bool) : nextLevel ands ≤ Unary.not.level := by
  cases ands <;> decide

theorem nextLevel_le_closed (ands : Bool) : nextLevel ands ≤ closed := by
  cases ands <;> decide

theorem Reads.link {ands : Bool} (h : Reads tests e r) (hleft : firstLevel ands ≤ r.tree.level)
    (h' : Reads tests e' r') (hright : nextLevel ands ≤ r'.tree.level) :
    Reads tests (.binary e (if ands then .and else .or) e') (r.link ands r') := by
  refine ⟨?_, ⟨⟨hleft, h.grouped⟩, hright, h'.grouped⟩, fun v => ?_⟩
  · have hword : connective? (if ands then BinaryOp.and else .or).token =
        some (if ands then Binary.and else .or).lexemes := by
      cases ands <;> rfl
    exact h.outlines.between hword h'.outlines
  · have hlink : (r.link ands r').tree.truth? (assigned tests v) = Option.map₂ (Truth.link ands)
        (r.tree.truth? (assigned tests v)) (r'.tree.truth? (assigned tests v)) := by
      cases ands <;> rfl
    rw [hlink, h.truth v, h'.truth v]
    rfl

theorem Reading.places_link (ands : Bool) (r r' : Reading) :
    (r.link ands r').tree.places = r.tree.places ++ r'.tree.places := by
  apply Tree.places_binary
  cases ands <;> rfl

theorem Reading.level_link (ands : Bool) (r r' : Reading) :
    firstLevel ands ≤ (r.link ands r').tree.level := by
  cases ands <;> exact Nat.le_refl _

end

/-! ## Chains -/

/-- Expressions put together by a connective. -/
def chain? (ands : Bool) (es : List Expr) : Option Expr :=
  if ands then Expr.all? es else Expr.any? es

/-- An operand as it stands in a chain: an `OR` under an `AND` is put in parentheses. -/
def guarded (ands : Bool) (e : Expr) : Expr :=
  if ands && e.isDisjunction then .paren e else e

theorem chain?_cons (ands : Bool) (e : Expr) (es : List Expr) :
    chain? ands (e :: es) = some (es.foldl
      (fun acc e => .binary acc (if ands then .and else .or) (guarded ands e)) (guarded ands e)) := by
  cases ands <;> rfl

/-- An operand of a chain binds tightly enough for it, or is put in parentheses. -/
def ChainOperand (tests : List Printed) (ands : Bool) (e : Expr) (r : Reading) : Prop :=
  Reads tests e r ∧ ((ands && e.isDisjunction) = true ∨ nextLevel ands ≤ r.tree.level)

section

variable {tests : List Printed} {ands : Bool} {es : List Expr} {rs : List Reading}

theorem ChainOperand.reads_guarded {e : Expr} {r : Reading} (h : ChainOperand tests ands e r) :
    ∃ r', Reads tests (guarded ands e) r' ∧ nextLevel ands ≤ r'.tree.level ∧
      r'.tree.places = r.tree.places ∧ r'.truth = r.truth := by
  obtain ⟨hreads, hlevel⟩ := h
  unfold guarded
  by_cases hor : (ands && e.isDisjunction) = true
  · rw [if_pos hor]
    exact ⟨r.enclosed, hreads.enclosed, nextLevel_le_closed ands, Tree.places_bracket _ _, rfl⟩
  · rw [if_neg hor]
    exact ⟨r, hreads, hlevel.resolve_left hor, rfl, rfl⟩

theorem reads_foldl {e : Expr} {r : Reading} (h : Reads tests e r)
    (hlevel : firstLevel ands ≤ r.tree.level) (hes : List.Forall₂ (ChainOperand tests ands) es rs) :
    ∃ r', Reads tests (es.foldl (fun acc e =>
        .binary acc (if ands then .and else .or) (guarded ands e)) e) r' ∧
      firstLevel ands ≤ r'.tree.level ∧
      r'.tree.places = r.tree.places ++ rs.flatMap (·.tree.places) ∧
      ∀ v, r'.truth v = (r.truth v).link ands (Truth.chain ands (rs.map (·.truth v))) := by
  induction hes generalizing e r with
  | nil => exact ⟨r, h, hlevel, by simp, fun v => by simp⟩
  | @cons e' r' es rs he _ ih =>
    obtain ⟨g, hg, hlevel', hplaces, htruth⟩ := he.reads_guarded
    obtain ⟨r'', hr'', hlevel'', hplaces'', htruth''⟩ :=
      ih (h.link hlevel hg hlevel') (Reading.level_link ands r g)
    refine ⟨r'', hr'', hlevel'', ?_, fun v => ?_⟩
    · rw [hplaces'', Reading.places_link, hplaces, List.flatMap_cons, List.append_assoc]
    · rw [htruth'', Reading.link, htruth, Truth.link_assoc, List.map_cons, Truth.chain_cons]

/-- A chain of `AND`s is true when all its operands are, and one of `OR`s when any of them is. -/
theorem reads_chain? (hes : List.Forall₂ (ChainOperand tests ands) es rs) (hne : es ≠ []) :
    ∃ e r, chain? ands es = some e ∧ Reads tests e r ∧ firstLevel ands ≤ r.tree.level ∧
      r.tree.places = rs.flatMap (·.tree.places) ∧
      ∀ v, r.truth v = Truth.chain ands (rs.map (·.truth v)) := by
  cases hes with
  | nil => exact (hne rfl).elim
  | @cons e r es rs he hes =>
    obtain ⟨g, hg, hlevel, hplaces, htruth⟩ := he.reads_guarded
    obtain ⟨r', hr', hlevel', hplaces', htruth'⟩ :=
      reads_foldl hg ((firstLevel_le_nextLevel ands).trans hlevel) hes
    refine ⟨_, r', chain?_cons ands e es, hr', hlevel', ?_, fun v => ?_⟩
    · rw [hplaces', hplaces, List.flatMap_cons]
    · rw [htruth', htruth, List.map_cons, Truth.chain_cons]

end

/-! ## Filters -/

/-- Expressions are the operands of a chain that is true when `x` says so, whatever tests are printed
before and after. -/
structure Chained (ands : Bool) (tests : List Printed) (es : List Expr)
    (x : (Predicate → Truth) → Truth) : Prop where
  nonempty : es ≠ []
  reads : ∀ before after, ∃ rs,
    List.Forall₂ (ChainOperand (before ++ tests ++ after) ands) es rs ∧
      rs.flatMap (·.tree.places) = List.range' before.length tests.length ∧
      ∀ v, Truth.chain ands (rs.map (·.truth v)) = x v

section

variable {ands : Bool} {tests tests' : List Printed} {es es' : List Expr} {e : Expr}
  {x x' : (Predicate → Truth) → Truth}

theorem Chained.append (h : Chained ands tests es x) (h' : Chained ands tests' es' x') :
    Chained ands (tests ++ tests') (es ++ es') (fun v => (x v).link ands (x' v)) := by
  refine ⟨List.append_ne_nil_of_left_ne_nil h.nonempty _, fun before after => ?_⟩
  obtain ⟨rs, hrs, hplaces, htruth⟩ := h.reads before (tests' ++ after)
  obtain ⟨rs', hrs', hplaces', htruth'⟩ := h'.reads (before ++ tests) after
  refine ⟨rs ++ rs', ?_, ?_, fun v => ?_⟩
  · simp only [List.append_assoc] at hrs hrs' ⊢
    exact List.rel_append hrs hrs'
  · rw [List.flatMap_append, hplaces, hplaces', List.length_append, List.length_append,
      List.range'_append_1]
  · rw [List.map_append, Truth.chain_append, htruth, htruth']

/-- An expression that is read for itself is a chain of one operand. -/
theorem chained_singleton
    (h : ∀ before after, ∃ r, ChainOperand (before ++ tests ++ after) ands e r ∧
      r.tree.places = List.range' before.length tests.length ∧ ∀ v, r.truth v = x v) :
    Chained ands tests [e] x := by
  refine ⟨List.cons_ne_nil _ _, fun before after => ?_⟩
  obtain ⟨r, hr, hplaces, htruth⟩ := h before after
  refine ⟨[r], .cons hr .nil, ?_, fun v => ?_⟩
  · rw [List.flatMap_singleton, hplaces]
  · rw [List.map_singleton, Truth.chain_cons, Truth.link_chain_nil, htruth]

/-- What a chain comes to. -/
theorem Chained.exists_chain? (h : Chained ands tests es x) :
    ∃ e, chain? ands es = some e ∧ ∀ before after, ∃ r, Reads (before ++ tests ++ after) e r ∧
      firstLevel ands ≤ r.tree.level ∧
      r.tree.places = List.range' before.length tests.length ∧ ∀ v, r.truth v = x v := by
  obtain ⟨e, he⟩ : ∃ e, chain? ands es = some e := by
    obtain ⟨first, rest, rfl⟩ := List.exists_cons_of_ne_nil h.nonempty
    exact ⟨_, chain?_cons ands first rest⟩
  refine ⟨e, he, fun before after => ?_⟩
  obtain ⟨rs, hrs, hplaces, htruth⟩ := h.reads before after
  obtain ⟨e', r, he', hr, hlevel, hplaces', htruth'⟩ := reads_chain? hrs h.nonempty
  cases he.symm.trans he'
  exact ⟨r, hr, hlevel, hplaces'.trans hplaces, fun v => (htruth' v).trans (htruth v)⟩

/-- A chain of `AND`s is an operand under `OR`. -/
theorem Chained.all? (h : Chained true tests es x) :
    Chained false tests (Expr.all? es).toList x := by
  obtain ⟨e, he, hreads⟩ := h.exists_chain?
  rw [show Expr.all? es = some e from he]
  refine chained_singleton fun before after => ?_
  obtain ⟨r, hr, hlevel, hplaces, htruth⟩ := hreads before after
  exact ⟨r, ⟨hr, .inr hlevel⟩, hplaces, htruth⟩

theorem isDisjunction_of_any? (hne : es ≠ []) (hne' : es' ≠ [])
    (he : Expr.any? (es ++ es') = some e) : e.isDisjunction = true := by
  obtain ⟨first, es, rfl⟩ := List.exists_cons_of_ne_nil hne
  obtain ⟨es', last, rfl⟩ := List.eq_nil_or_concat es' |>.resolve_left hne'
  rw [List.cons_append, Expr.any?, List.concat_eq_append, ← List.append_assoc,
    List.foldl_append] at he
  cases he
  rfl

/-- A chain of two `OR`s at least is an operand under `AND`. -/
theorem Chained.any? (h : Chained false tests es x) (h' : Chained false tests' es' x') :
    Chained true (tests ++ tests') (Expr.any? (es ++ es')).toList (fun v => (x v).or (x' v)) := by
  obtain ⟨e, he, hreads⟩ := (h.append h').exists_chain?
  replace he : Expr.any? (es ++ es') = some e := he
  rw [he]
  refine chained_singleton fun before after => ?_
  obtain ⟨r, hr, -, hplaces, htruth⟩ := hreads before after
  exact ⟨r, ⟨hr, .inl (isDisjunction_of_any? h.nonempty h'.nonempty he)⟩, hplaces, htruth⟩

theorem Chained.not (h : Chained false tests es x) :
    Chained ands tests ((Expr.any? es).toList.map fun e => .not (.paren e))
      (fun v => (x v).not) := by
  obtain ⟨e, he, hreads⟩ := h.exists_chain?
  rw [show Expr.any? es = some e from he]
  refine chained_singleton fun before after => ?_
  obtain ⟨r, hr, -, hplaces, htruth⟩ := hreads before after
  have hinner : Unary.not.level ≤ closed := by decide
  refine ⟨r.enclosed.opposite, ⟨hr.enclosed.opposite hinner, .inr (nextLevel_le_not ands)⟩, ?_,
    fun v => congrArg Truth.not (htruth v)⟩
  rw [Reading.opposite, Tree.places_not, Reading.enclosed, Tree.places_bracket, hplaces]

theorem chained_test (t : Printed) : Chained ands [t] [t.expr] (fun v => v t.predicate) := by
  refine chained_singleton fun before after => ?_
  have hplace : (before ++ [t] ++ after)[before.length]? = some t := by simp
  exact ⟨_, ⟨.place hplace, .inr (nextLevel_le_closed ands)⟩, rfl, fun _ => rfl⟩

end

section

variable {d : Dialect} {column : Predicate → Except CompileError Expr} {vs us vs' : List Operand}

theorem run_mapM_append {ps qs : List Predicate} {tests tests' : List Printed}
    (h : (ps.mapM (print d column)).run vs = .ok (tests, us))
    (h' : (qs.mapM (print d column)).run us = .ok (tests', vs')) :
    ((ps ++ qs).mapM (print d column)).run vs = .ok (tests ++ tests', vs') := by
  rw [List.mapM_append, StateT.run_bind, h]
  show ((qs.mapM (print d column)).run us >>= _) = _
  rw [h']
  rfl

/-- Over the constructors of the filter: its operands are printed from left to right. -/
theorem chained_operands {f : Filter} {ands : Bool} {es : List Expr}
    (h : (operands d column ands f).run vs = .ok (es, vs')) :
    ∃ tests, (f.predicates.mapM (print d column)).run vs = .ok (tests, vs') ∧
      Chained ands tests es fun v => f.value v := by
  induction f generalizing ands vs vs' es with
  | and a b iha ihb =>
    obtain ⟨left, us, hleft, h⟩ := run_bind_ok h
    obtain ⟨right, _, hright, h⟩ := run_bind_ok h
    cases h
    obtain ⟨ta, hta, ha⟩ := iha hleft
    obtain ⟨tb, htb, hb⟩ := ihb hright
    refine ⟨ta ++ tb, run_mapM_append hta htb, ?_⟩
    cases ands with
    | true => exact ha.append hb
    | false => exact (ha.append hb).all?
  | or a b iha ihb =>
    obtain ⟨left, us, hleft, h⟩ := run_bind_ok h
    obtain ⟨right, _, hright, h⟩ := run_bind_ok h
    cases h
    obtain ⟨ta, hta, ha⟩ := iha hleft
    obtain ⟨tb, htb, hb⟩ := ihb hright
    refine ⟨ta ++ tb, run_mapM_append hta htb, ?_⟩
    cases ands with
    | true => exact ha.any? hb
    | false => exact ha.append hb
  | not f ih =>
    obtain ⟨inner, _, hinner, h⟩ := run_bind_ok h
    cases h
    obtain ⟨tests, htests, hchained⟩ := ih hinner
    exact ⟨tests, htests, hchained.not⟩
  | test p =>
    obtain ⟨e, _, he, h⟩ := run_bind_ok h
    obtain ⟨e', _, he', h⟩ := run_bind_ok h
    cases h
    refine ⟨[⟨p, e'⟩], ?_, chained_test _⟩
    have hprint : (print d column p).run vs = .ok (⟨p, e'⟩, vs') := by
      rw [print, StateT.run_bind, he]
      show ((ofPredicate d e p).run _ >>= _) = _
      rw [he']
      rfl
    rw [Filter.predicates, List.mapM_cons, StateT.run_bind, hprint]
    rfl

/-! ## Tests -/

theorem exists_token_negatedIf {e : Expr} (h : ∃ t ∈ e.tokens, connective? t = none)
    (negated : Bool) : ∃ t ∈ (negatedIf negated e).tokens, connective? t = none := by
  obtain ⟨t, ht, hnone⟩ := h
  cases negated with
  | true => exact ⟨t, by simp [negatedIf, Expr.tokens, ht], hnone⟩
  | false => exact ⟨t, ht, hnone⟩

/-- Every test is written with a word or sign that connects nothing. -/
theorem exists_token_ofPredicate {e e' : Expr} {p : Predicate}
    (h : (ofPredicate d e p).run vs = .ok (e', vs')) :
    ∃ t ∈ e'.tokens, connective? t = none := by
  obtain ⟨path, op, values⟩ := p
  unfold ofPredicate at h
  cases op with
  | compare c =>
    obtain ⟨v, _, -, h⟩ := run_bind_ok h
    cases h
    refine ⟨(comparison c).token, by simp [Expr.tokens], ?_⟩
    cases c <;> rfl
  | oneOf negated case =>
    obtain ⟨es, _, -, h⟩ := run_bind_ok h
    cases h
    cases es with
    | nil => exact ⟨_, List.mem_singleton_self _, rfl⟩
    | cons v es => exact ⟨.word .in_, by simp [Expr.tokens], rfl⟩
  | between negated =>
    obtain ⟨low, _, -, h⟩ := run_bind_ok h
    obtain ⟨high, _, -, h⟩ := run_bind_ok h
    cases h
    exact ⟨.word .between, by simp [Expr.tokens], rfl⟩
  | find anchor case =>
    obtain ⟨v, _, -, h⟩ := run_bind_ok h
    cases h
    exact ⟨.word .like, by simp [Expr.tokens], rfl⟩
  | isNull negated =>
    cases h
    refine ⟨.word (if negated then .isNotNull else .isNull), by simp [Expr.tokens], ?_⟩
    cases negated <;> rfl
  | isEmpty negated =>
    obtain ⟨v, _, hv, h⟩ := run_bind_ok h
    cases h
    refine exists_token_negatedIf ?_ negated
    have hoffered := offered_run hv
    cases d with
    | duckdb | postgres =>
      cases hoffered
      exact ⟨.sym .eq, by simp [Expr.tokens, BinaryOp.token], rfl⟩
    | tsql | mysql | snowflake | sqlite => cases hoffered
  | hasMember negated =>
    obtain ⟨v, _, -, h⟩ := run_bind_ok h
    obtain ⟨w, _, hw, h⟩ := run_bind_ok h
    cases h
    refine exists_token_negatedIf ?_ negated
    have hoffered := offered_run hw
    cases d with
    | duckdb =>
      cases hoffered
      exact ⟨.function "LIST_CONTAINS", by simp [Expr.tokens], rfl⟩
    | postgres =>
      cases hoffered
      exact ⟨.sym .eq, by simp [Expr.tokens, BinaryOp.token], rfl⟩
    | tsql | mysql | snowflake | sqlite => cases hoffered

theorem exists_token_printed {ps : List Predicate} {tests : List Printed}
    (h : (ps.mapM (print d column)).run vs = .ok (tests, vs')) :
    ∀ t ∈ tests, ∃ x ∈ t.expr.tokens, connective? x = none := by
  induction ps generalizing vs tests with
  | nil =>
    cases h
    exact fun t ht => by cases ht
  | cons p ps ih =>
    rw [List.mapM_cons] at h
    obtain ⟨t, _, ht, h⟩ := run_bind_ok h
    obtain ⟨rest, _, hrest, h⟩ := run_bind_ok h
    cases h
    obtain ⟨e, _, -, ht⟩ := run_bind_ok ht
    obtain ⟨e', _, he', ht⟩ := run_bind_ok ht
    cases ht
    exact List.forall_mem_cons.2 ⟨exists_token_ofPredicate he', ih hrest⟩

/-- A filter that can be written is written so that the tokens say what it says. When the tests in
them, in the order of the filter, are taken for single operands, they are words and signs in one way
only; the standard precedence makes an expression of these; and whatever the tests are, true, false
or unknown, the expression is what the filter is. -/
theorem ofFilter_keeps_grouping {f : Filter} {e? : Option Expr}
    (h : (ofFilter d column f).run vs = .ok (e?, vs')) :
    ∃ e tests, e? = some e ∧ (f.predicates.mapM (print d column)).run vs = .ok (tests, vs') ∧
      (∃ xs, OutlinesAll tests e.tokens xs) ∧
      ∀ xs, OutlinesAll tests e.tokens xs →
        ∃ t, parse? xs = some t ∧ ∀ v, t.truth? (assigned tests v) = some (f.value v) := by
  obtain ⟨es, _, hes, h⟩ := run_bind_ok h
  cases h
  obtain ⟨tests, htests, hchained⟩ := chained_operands hes
  obtain ⟨e, he, hreads⟩ := hchained.exists_chain?
  obtain ⟨r, hr, hlevel, hplaces, htruth⟩ := hreads [] []
  rw [List.nil_append, List.append_nil] at hr
  have hall : OutlinesAll tests e.tokens r.tree.lexemes := by
    refine ⟨hr.outlines, ?_⟩
    rw [← Tree.places, hplaces, List.length_nil, List.range_eq_range']
  refine ⟨e, tests, he, htests, ⟨_, hall⟩, fun xs hxs => ?_⟩
  have heq : xs = r.tree.lexemes :=
    hxs.1.unique (exists_token_printed htests) hr.outlines (hxs.2.trans hall.2.symm)
  refine ⟨r.tree, parse?_eq_some.2 ⟨heq.symm, hr.grouped, hlevel⟩, fun v => ?_⟩
  rw [hr.truth v, htruth v]

end

/-- Columns by their names alone. -/
def named (p : Predicate) : Except CompileError Expr :=
  .ok (.column none p.column.column)

/-- More games were won than a number. -/
def wonOver (n : Int64) : Predicate :=
  ⟨{ column := "won" }, .compare .gt, [.int n]⟩

/-- The league is one of some. -/
def playsIn (leagues : List String) : Predicate :=
  ⟨{ column := "league" }, .oneOf false .sensitive, leagues.map .text⟩

/-- The squad is not empty. -/
def hasSquad : Predicate :=
  ⟨{ column := "squad" }, .isEmpty true, []⟩

/-- The `OR` stands in parentheses and so does what is denied, a test of a collection like an `AND`;
the `AND`s stand in none. -/
theorem ofFilter_keeps_grouping_squads :
    let f : Filter := .and (.test (wonOver 3))
      (.or (.not (.and (.test (wonOver 9)) (.test (playsIn ["A"])))) (.test hasSquad))
    ∃ e vs, (ofFilter .postgres named f).run [] = .ok (some e, vs) ∧
      e.render .postgres = "\"won\" > $1 AND (NOT (\"won\" > $2 AND \"league\" IN ($3)) OR " ++
        "NOT (COALESCE(CARDINALITY(\"squad\"), 0) = 0))" ∧
      ∃ tests, (f.predicates.mapM (print .postgres named)).run [] = .ok (tests, vs) ∧
        (∃ xs, OutlinesAll tests e.tokens xs) ∧
        ∀ xs, OutlinesAll tests e.tokens xs → ∃ t, parse? xs = some t ∧
          ∀ v, t.truth? (assigned tests v) = some ((v (wonOver 3)).and
            (((v (wonOver 9)).and (v (playsIn ["A"]))).not.or (v hasSquad))) := by
  intro f
  obtain ⟨e, vs, h⟩ : ∃ e vs, (ofFilter .postgres named f).run [] = .ok (some e, vs) := ⟨_, _, rfl⟩
  obtain ⟨e', tests, he, htests, hexists, hreads⟩ := ofFilter_keeps_grouping h
  cases he
  refine ⟨e, vs, h, ?_, tests, htests, hexists, hreads⟩
  cases h
  decide +kernel

end Condition

end Rollup
