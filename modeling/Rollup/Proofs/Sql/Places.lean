/-
Expressions with places for operands. What is put into a place is the operand there, in the text as
it is in the expression, exactly if it binds as tightly as the operators around the place demand:
between two texts nothing but their order says what belongs together.
-/
import Rollup.Proofs.Sql.Lexing
import Mathlib.Order.Basic

namespace Rollup.Sql.Precedence

/-! ## Filling places -/

namespace Tree

/-- An expression with operands in its places. -/
def fill (f : Nat → Tree) : Tree → Tree
  | leaf text => leaf text
  | hole i => f i
  | star => star
  | bracket b inner => bracket b (inner.fill f)
  | call function arguments => call function (arguments.fill f)
  | thunk function => thunk function
  | unary p t => unary p (t.fill f)
  | binary l o r => binary (l.fill f) o (r.fill f)
  | between negated e lower upper =>
    between negated (e.fill f) (lower.fill f) (upper.fill f)

/-- How tightly operands must bind at a place of an expression of which a level is demanded. -/
def demandIn (i : Nat) : Nat → Tree → Nat
  | n, hole j => if j = i then n else 0
  | _, bracket _ inner => inner.demandIn i 0
  | _, call _ arguments => arguments.demandIn i 0
  | _, unary p t => t.demandIn i p.level
  | _, binary l o r => max (l.demandIn i o.left) (r.demandIn i o.right)
  | _, between _ e lower upper =>
    max (e.demandIn i arithmetic)
      (max (lower.demandIn i arithmetic) (upper.demandIn i arithmetic))
  | _, _ => 0

/-- How tightly operands must bind at a place of a complete expression. -/
def demand (t : Tree) (i : Nat) : Nat :=
  t.demandIn i 2

end Tree

theorem Unary.level_lt_closed (p : Unary) : p.level < closed := by
  cases p <;> simp [level, closed]

theorem Binary.right_le_closed (o : Binary) : o.right ≤ closed := by
  cases o <;> simp [right, level, comparison, arithmetic, closed]

theorem Binary.left_le_closed (o : Binary) : o.left ≤ closed := by
  cases o <;> simp [left, level, comparison, arithmetic, closed]

namespace Tree

variable {f : Nat → Tree}

theorem demandIn_le_closed (i : Nat) {n : Nat} (hn : n ≤ closed) (t : Tree) :
    t.demandIn i n ≤ closed := by
  have hzero : 0 ≤ closed := Nat.zero_le _
  have harithmetic : arithmetic ≤ closed := by decide
  induction t generalizing n with
  | leaf _ | star | thunk _ => exact hzero
  | hole j =>
    rw [demandIn]
    split
    · exact hn
    · exact hzero
  | bracket _ inner ih | call _ inner ih => exact ih hzero
  | unary p t ih => exact ih p.level_lt_closed.le
  | binary l o r ihl ihr => exact max_le (ihl o.left_le_closed) (ihr o.right_le_closed)
  | between negated e lower upper ihe ihlower ihupper =>
    exact max_le (ihe harithmetic) (max_le (ihlower harithmetic) (ihupper harithmetic))

/-- The operators of a filled expression have the operands they demand if they have so without what
is filled in, and what is filled in binds as tightly as the places demand. -/
theorem grouped_fill (hf : ∀ i, (f i).Grouped) {n : Nat} (hn : n ≤ closed) (t : Tree) :
    (n ≤ (t.fill f).level ∧ (t.fill f).Grouped) ↔
      (n ≤ t.level ∧ t.Grouped) ∧ ∀ i, t.demandIn i n ≤ (f i).level := by
  have hzero : 0 ≤ closed := Nat.zero_le _
  have harithmetic : arithmetic ≤ closed := by decide
  induction t generalizing n with
  | leaf _ | star | thunk _ => simp [fill, demandIn]
  | hole j =>
    have hplace : (∀ i, (if j = i then n else 0) ≤ (f i).level) ↔ n ≤ (f j).level := by
      constructor
      · intro h
        simpa using h j
      · intro h i
        split
        · rename_i hij
          exact hij ▸ h
        · exact Nat.zero_le _
    simp only [fill, demandIn, hplace, hf j, and_true]
    exact ⟨fun h => ⟨⟨hn, trivial⟩, h⟩, fun h => h.2⟩
  | bracket _ inner ih | call _ inner ih =>
    have hinner := ih hzero
    simp only [Nat.zero_le, true_and] at hinner
    show n ≤ closed ∧ (inner.fill f).Grouped ↔
      (n ≤ closed ∧ inner.Grouped) ∧ ∀ i, inner.demandIn i 0 ≤ (f i).level
    simp only [hinner, and_assoc]
  | unary p t ih =>
    show n ≤ p.level ∧ p.level ≤ (t.fill f).level ∧ (t.fill f).Grouped ↔
      (n ≤ p.level ∧ p.level ≤ t.level ∧ t.Grouped) ∧ ∀ i, t.demandIn i p.level ≤ (f i).level
    simp only [ih p.level_lt_closed.le, and_assoc]
  | binary l o r ihl ihr =>
    show n ≤ o.level ∧ (o.left ≤ (l.fill f).level ∧ (l.fill f).Grouped) ∧
        o.right ≤ (r.fill f).level ∧ (r.fill f).Grouped ↔
      (n ≤ o.level ∧ (o.left ≤ l.level ∧ l.Grouped) ∧ o.right ≤ r.level ∧ r.Grouped) ∧
        ∀ i, max (l.demandIn i o.left) (r.demandIn i o.right) ≤ (f i).level
    simp only [ihl o.left_le_closed, ihr o.right_le_closed, Nat.max_le, forall_and]
    tauto
  | between negated e lower upper ihe ihlower ihupper =>
    show n ≤ comparison ∧ (arithmetic ≤ (e.fill f).level ∧ (e.fill f).Grouped) ∧
        (arithmetic ≤ (lower.fill f).level ∧ (lower.fill f).Grouped) ∧
        arithmetic ≤ (upper.fill f).level ∧ (upper.fill f).Grouped ↔
      (n ≤ comparison ∧ (arithmetic ≤ e.level ∧ e.Grouped) ∧
        (arithmetic ≤ lower.level ∧ lower.Grouped) ∧ arithmetic ≤ upper.level ∧ upper.Grouped) ∧
        ∀ i, max (e.demandIn i arithmetic)
          (max (lower.demandIn i arithmetic) (upper.demandIn i arithmetic)) ≤ (f i).level
    simp only [ihe harithmetic, ihlower harithmetic, ihupper harithmetic, Nat.max_le, forall_and]
    tauto

theorem complete_fill (hf : ∀ i, (f i).Grouped) (t : Tree) :
    (t.fill f).Complete ↔ t.Complete ∧ ∀ i, t.demand i ≤ (f i).level := by
  have htwo : 2 ≤ closed := by decide
  rw [Complete, and_comm, grouped_fill hf htwo, Complete, and_comm (a := t.Grouped)]
  rfl

end Tree

/-- What is written for a word or sign when the places are filled. -/
def Lexeme.filled (f : Nat → Tree) : Lexeme → List Lexeme
  | hole i => (f i).lexemes
  | x => [x]

theorem flatMap_filled_of_isHole {f : Nat → Tree} {xs : List Lexeme}
    (h : ∀ x ∈ xs, x.isHole = false) : xs.flatMap (Lexeme.filled f) = xs := by
  induction xs with
  | nil => rfl
  | cons x xs ih =>
    obtain ⟨hx, hxs⟩ := List.forall_mem_cons.1 h
    have hfilled : x.filled f = [x] := by
      cases x with
      | hole i => cases hx
      | _ => rfl
    rw [List.flatMap_cons, hfilled, ih hxs, List.singleton_append]

theorem Tree.lexemes_fill (f : Nat → Tree) (t : Tree) :
    (t.fill f).lexemes = t.lexemes.flatMap (Lexeme.filled f) := by
  have hnegation (negated : Bool) :
      (negation negated).flatMap (Lexeme.filled f) = negation negated := by
    cases negated <;> rfl
  induction t with
  | leaf _ | star | thunk _ => rfl
  | hole i => simp [fill, lexemes, Lexeme.filled]
  | bracket _ _ ih | call _ _ ih => simp [fill, lexemes, Lexeme.filled, ih]
  | unary p t ih => cases p <;> simp [fill, lexemes, Unary.lexeme, Lexeme.filled, ih]
  | binary l o r ihl ihr =>
    cases o <;> simp [fill, lexemes, Binary.lexemes, Lexeme.filled, hnegation, ihl, ihr]
  | between negated e lower upper ihe ihlower ihupper =>
    simp [fill, lexemes, Lexeme.filled, hnegation, ihe, ihlower, ihupper]

/-! ## Texts between operands -/

/-- A text with what stands in it and the texts behind. -/
def weave (first : String) : List (String × String) → String
  | [] => first
  | (inner, text) :: rest => first ++ (inner ++ weave text rest)

/-- The words and signs of the texts alone, with places for what stands between them. -/
def outline? (d : Dialect) (i : Nat) (first : String) :
    List (String × String) → Option (List Lexeme)
  | [] => Pending.lex? d (.lone []) first.toList
  | (_, text) :: rest =>
    (Pending.lex? d (.lone []) first.toList).bind fun xs =>
      (outline? d (i + 1) text rest).map fun ys => xs ++ .hole i :: ys

/-- No word or sign reaches from one text into the next. -/
def Spaced (d : Dialect) (first : String) : List (String × String) → Prop
  | [] => True
  | (inner, text) :: rest =>
    Apart d first.toList (inner ++ weave text rest).toList ∧
      Apart d inner.toList (weave text rest).toList ∧ Spaced d text rest

/-- Decides it text by text. -/
def decideSpaced (d : Dialect) (first : String) :
    (rest : List (String × String)) → Decidable (Spaced d first rest)
  | [] => .isTrue trivial
  | (_, text) :: rest =>
    @instDecidableAnd _ _ _ (@instDecidableAnd _ _ _ (decideSpaced d text rest))

instance (d : Dialect) (first : String) (rest : List (String × String)) :
    Decidable (Spaced d first rest) :=
  decideSpaced d first rest

theorem lexes_weave {d : Dialect} {f : Nat → Tree} {first : String}
    {rest : List (String × String)} (hspaced : Spaced d first rest) {i : Nat} {xs : List Lexeme}
    (hxs : outline? d i first rest = some xs)
    (hf : ∀ j e, rest[j]? = some e → Lexes d e.1.toList (f (i + j)).lexemes) :
    Lexes d (weave first rest).toList (xs.flatMap (Lexeme.filled f)) := by
  induction rest generalizing i first xs with
  | nil =>
    have hfirst : Lexes d first.toList xs := hxs
    rw [flatMap_filled_of_isHole hfirst.isHole]
    exact hfirst
  | cons e rest ih =>
    obtain ⟨inner, text⟩ := e
    obtain ⟨hbefore, hbehind, hspaced⟩ := hspaced
    obtain ⟨ys, hfirst, hxs⟩ := Option.bind_eq_some_iff.1 hxs
    obtain ⟨zs, hzs, rfl⟩ := Option.map_eq_some_iff.1 hxs
    have hinner : Lexes d inner.toList (f i).lexemes := hf 0 _ rfl
    have hrest : Lexes d (weave text rest).toList (zs.flatMap (Lexeme.filled f)) := by
      refine ih hspaced hzs fun j e he => ?_
      have hj := hf (j + 1) e he
      rwa [← Nat.add_assoc, Nat.add_right_comm] at hj
    have hlast := hinner.append hrest hbehind
    rw [← String.toList_append] at hlast
    rw [List.flatMap_append, flatMap_filled_of_isHole (Lexes.isHole hfirst), List.flatMap_cons,
      weave, String.toList_append]
    exact Lexes.append hfirst hlast hbefore

/-- Expressions put between texts are the operands there exactly if each binds as tightly as its
place demands. -/
theorem read?_weave_iff {d : Dialect} {first : String} {rest : List (String × String)}
    (hspaced : Spaced d first rest) {t : Tree}
    (ht : (outline? d 0 first rest).bind parse? = some t) {ts : List Tree}
    (hts : rest.map (read? d ·.1) = ts.map some) :
    read? d (weave first rest) = some (t.fill fun i => ts.getD i .star) ↔
      ∀ i u, ts[i]? = some u → t.demand i ≤ u.level := by
  obtain ⟨xs, hxs, ht⟩ := Option.bind_eq_some_iff.1 ht
  obtain ⟨rfl, hcomplete⟩ := parse?_eq_some.1 ht
  have hread : ∀ (j : Nat) (e : String × String), rest[j]? = some e →
      ∃ u, ts[j]? = some u ∧ read? d e.1 = some u := by
    intro j e he
    have hj := congrArg (·[j]?) hts
    simp only [List.getElem?_map, he, Option.map_some] at hj
    obtain ⟨u, hu, heq⟩ := Option.map_eq_some_iff.1 hj.symm
    exact ⟨u, hu, heq.symm⟩
  have hmem : ∀ (j : Nat) u, ts[j]? = some u →
      ∃ e : String × String, rest[j]? = some e ∧ read? d e.1 = some u := by
    intro j u hu
    have hj := congrArg (·[j]?) hts
    simp only [List.getElem?_map, hu, Option.map_some] at hj
    exact Option.map_eq_some_iff.1 hj
  have hgrouped : ∀ i, (ts.getD i .star).Grouped := by
    intro i
    rw [List.getD_eq_getElem?_getD]
    cases hi : ts[i]? with
    | none => trivial
    | some u =>
      obtain ⟨e, -, he⟩ := hmem i u hi
      exact (read?_eq_some.1 he).2.1
  have hlexes : Lexes d (weave first rest).toList
      (t.fill fun i => ts.getD i .star).lexemes := by
    rw [Tree.lexemes_fill]
    refine lexes_weave hspaced hxs fun j e he => ?_
    obtain ⟨u, hu, heq⟩ := hread j e he
    rw [Nat.zero_add, List.getD_eq_getElem?_getD, hu]
    exact (read?_eq_some.1 heq).1
  have hdemands : (∀ i, t.demand i ≤ (ts.getD i .star).level) ↔
      ∀ i u, ts[i]? = some u → t.demand i ≤ u.level := by
    refine forall_congr' fun i => ?_
    rw [List.getD_eq_getElem?_getD]
    cases ts[i]? with
    | none =>
      have hclosed : t.demand i ≤ closed := Tree.demandIn_le_closed i (by decide) t
      exact ⟨fun _ _ hu => (by cases hu), fun _ => hclosed⟩
    | some u => simp
  rw [read?_eq_some, Tree.complete_fill hgrouped, hdemands]
  exact ⟨fun h => h.2.2, fun h => ⟨hlexes, hcomplete, h⟩⟩

end Rollup.Sql.Precedence
