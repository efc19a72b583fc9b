/-
Reading SQL expressions by the standard precedence of their operators: arithmetic binds more
tightly than comparisons, these more tightly than `NOT`, then `AND`, then `OR`. An expression is a
tree whose operators have operands as tight as they demand, and its words and signs in a row are
read back by a machine with a stack of unfinished operators. A row has one reading at most.
-/
import Rollup.Sql.Dialect

namespace Rollup.Sql.Precedence

/-! ## Expressions -/

/-- What stands in a pair around an expression. -/
inductive Bracket where
  | round
  /-- The words `CASE` and `END`. -/
  | case
  deriving DecidableEq, Repr

/-- The words and signs of expressions, by the part they play. -/
inductive Lexeme where
  /-- A name, a number, a quoted text or a placeholder. -/
  | operand (text : String)
  /-- The place of an operand that is yet to be written. -/
  | hole (i : Nat)
  | opening (b : Bracket)
  | closing (b : Bracket)
  /-- What parts arguments and clauses: a comma, or a word such as `WHEN`. -/
  | separator (text : String)
  | or
  | and
  | not
  | is
  | between
  /-- A comparison, or a word such as `IN` or `LIKE`. -/
  | test (text : String)
  | escape
  | sum (text : String)
  | product (text : String)
  /-- What joins parts more tightly than arithmetic: the dot of a name, or a cast. -/
  | joint (text : String)
  /-- A word before a literal, such as `INTERVAL`. -/
  | lead (text : String)
  deriving DecidableEq, Repr

/-- Operators before their operand. -/
inductive Unary where
  | separator (text : String)
  | not
  | sign (text : String)
  | lead (text : String)
  deriving DecidableEq, Repr

/-- Operators between two operands. -/
inductive Binary where
  | separator (text : String)
  | or
  | and
  | test (negated : Bool) (text : String)
  | is (negated : Bool)
  | escape
  | sum (text : String)
  | product (text : String)
  | joint (text : String)
  deriving DecidableEq, Repr

/-- How tightly comparisons bind. -/
def comparison : Nat := 5

/-- How tightly sums bind: the least that the operands of a comparison must. -/
def arithmetic : Nat := 6

/-- How tightly what stands by itself binds. -/
def closed : Nat := 10

/-- How tightly an operator binds, and the least that its operand must. -/
def Unary.level : Unary → Nat
  | separator _ => 1
  | not => 4
  | sign _ | lead _ => 8

/-- How tightly an operator binds. -/
def Binary.level : Binary → Nat
  | separator _ => 0
  | or => 2
  | and => 3
  | test _ _ | is _ | escape => comparison
  | sum _ => arithmetic
  | product _ => 7
  | joint _ => 9

/-- How tightly the first operand must bind. Operators of a level are grouped from the left, but a
comparison is not compared further. -/
def Binary.left : Binary → Nat
  | test _ _ => arithmetic
  | o => o.level

/-- How tightly the second operand must bind. -/
def Binary.right (o : Binary) : Nat :=
  o.level + 1

/-- An expression. -/
inductive Tree where
  | leaf (text : String)
  | hole (i : Nat)
  | star
  | bracket (b : Bracket) (inner : Tree)
  | call (function : String) (arguments : Tree)
  /-- A call without arguments. -/
  | thunk (function : String)
  | unary (p : Unary) (t : Tree)
  | binary (l : Tree) (o : Binary) (r : Tree)
  | between (negated : Bool) (e lower upper : Tree)
  deriving DecidableEq, Repr

/-- The word `NOT` of an operator that is negated. -/
def negation (negated : Bool) : List Lexeme :=
  if negated then [.not] else []

/-- The word or sign of an operator. -/
def Unary.lexeme : Unary → Lexeme
  | separator text => .separator text
  | not => .not
  | sign text => .sum text
  | lead text => .lead text

/-- The words and signs of an operator. -/
def Binary.lexemes : Binary → List Lexeme
  | separator text => [.separator text]
  | or => [.or]
  | and => [.and]
  | test negated text => negation negated ++ [.test text]
  | is negated => .is :: negation negated
  | escape => [.escape]
  | sum text => [.sum text]
  | product text => [.product text]
  | joint text => [.joint text]

namespace Tree

/-- The words and signs of an expression in a row. -/
def lexemes : Tree → List Lexeme
  | leaf text => [.operand text]
  | hole i => [.hole i]
  | star => [.product "*"]
  | bracket b inner => .opening b :: (inner.lexemes ++ [.closing b])
  | call function arguments =>
    .operand function :: .opening .round :: (arguments.lexemes ++ [.closing .round])
  | thunk function => [.operand function, .opening .round, .closing .round]
  | unary p t => p.lexeme :: t.lexemes
  | binary l o r => l.lexemes ++ (o.lexemes ++ r.lexemes)
  | between negated e lower upper =>
    e.lexemes ++ (negation negated ++ (.between :: (lower.lexemes ++ (.and :: upper.lexemes))))

/-- How tightly the operator of an expression binds that is applied last. -/
def level : Tree → Nat
  | unary p _ => p.level
  | binary _ o _ => o.level
  | between _ _ _ _ => comparison
  | _ => closed

/-- Every operand binds as tightly as its operator demands. -/
def Grouped : Tree → Prop
  | bracket _ inner => inner.Grouped
  | call _ arguments => arguments.Grouped
  | unary p t => p.level ≤ t.level ∧ t.Grouped
  | binary l o r => (o.left ≤ l.level ∧ l.Grouped) ∧ (o.right ≤ r.level ∧ r.Grouped)
  | between _ e lower upper =>
    (arithmetic ≤ e.level ∧ e.Grouped) ∧ (arithmetic ≤ lower.level ∧ lower.Grouped) ∧
      (arithmetic ≤ upper.level ∧ upper.Grouped)
  | _ => True

/-- Decides the demands of all operators. -/
def decideGrouped : (t : Tree) → Decidable t.Grouped
  | leaf _ | hole _ | star | thunk _ => .isTrue trivial
  | bracket _ inner => decideGrouped inner
  | call _ arguments => decideGrouped arguments
  | unary _ t => @instDecidableAnd _ _ _ (decideGrouped t)
  | binary l _ r =>
    @instDecidableAnd _ _ (@instDecidableAnd _ _ _ (decideGrouped l))
      (@instDecidableAnd _ _ _ (decideGrouped r))
  | between _ e lower upper =>
    @instDecidableAnd _ _ (@instDecidableAnd _ _ _ (decideGrouped e))
      (@instDecidableAnd _ _ (@instDecidableAnd _ _ _ (decideGrouped lower))
        (@instDecidableAnd _ _ _ (decideGrouped upper)))

instance (t : Tree) : Decidable t.Grouped :=
  t.decideGrouped

/-- An expression that can stand by itself: no list of arguments and no clause. -/
def Complete (t : Tree) : Prop :=
  t.Grouped ∧ 2 ≤ t.level

instance (t : Tree) : Decidable t.Complete :=
  inferInstanceAs (Decidable (_ ∧ _))

end Tree

/-! ## The machine -/

/-- An operator that waits for an operand, or a bracket that waits for its end. -/
inductive Frame where
  | bracket (b : Bracket)
  | call (function : String)
  | unary (p : Unary)
  | binary (l : Tree) (o : Binary)
  /-- A `BETWEEN` that waits for its lower bound. -/
  | low (negated : Bool) (e : Tree)
  /-- A `BETWEEN` that waits for its upper bound. -/
  | high (negated : Bool) (e lower : Tree)

/-- What a frame makes of its operand, when it binds at least so tightly. -/
def Frame.joined? (n : Nat) (t : Tree) : Frame → Option Tree
  | unary p => if n ≤ p.level then some (.unary p t) else none
  | binary l o => if n ≤ o.level then some (.binary l o t) else none
  | high negated e lower => if n ≤ comparison then some (.between negated e lower t) else none
  | _ => none

/-- How tightly the operand must bind that a frame waits for. -/
def Frame.demand : Frame → Nat
  | bracket _ | call _ => 0
  | unary p => p.level
  | binary _ o => o.right
  | low _ _ | high _ _ _ => arithmetic

/-- Finishes the operators that bind at least so tightly. -/
def reduce (n : Nat) : Tree → List Frame → Tree × List Frame
  | t, [] => (t, [])
  | t, f :: fs =>
    match f.joined? n t with
    | some t' => reduce n t' fs
    | none => (t, f :: fs)

/-- Where the machine stands. -/
inductive State where
  /-- Before an operand. -/
  | wants (fs : List Frame)
  /-- After one. -/
  | holds (t : Tree) (fs : List Frame)
  /-- After one and a `NOT`. -/
  | negates (t : Tree) (fs : List Frame)

namespace State

/-- An operator takes what is finished by it as its first operand. -/
def operate (o : Binary) (t : Tree) (fs : List Frame) : State :=
  wants (.binary (reduce o.level t fs).1 o :: (reduce o.level t fs).2)

/-- A `BETWEEN`, which takes what is finished by it as what lies between the bounds. -/
def bound (negated : Bool) (t : Tree) (fs : List Frame) : State :=
  wants (.low negated (reduce comparison t fs).1 :: (reduce comparison t fs).2)

/-- An `AND`, which belongs to a `BETWEEN` that waits for its lower bound. -/
def conjoin (t : Tree) (fs : List Frame) : State :=
  match reduce Binary.and.level t fs with
  | (lower, .low negated e :: fs) => wants (.high negated e lower :: fs)
  | (l, fs) => wants (.binary l .and :: fs)

/-- The end of a bracket or of the arguments of a call. -/
def close? (b : Bracket) (t : Tree) (fs : List Frame) : Option State :=
  match reduce 0 t fs with
  | (inner, .bracket b' :: fs) => if b = b' then some (holds (.bracket b inner) fs) else none
  | (inner, .call function :: fs) =>
    if b = .round then some (holds (.call function inner) fs) else none
  | _ => none

/-- A `NOT` before an operand, which belongs to an `IS` that it follows. -/
def deny (fs : List Frame) : State :=
  match fs with
  | .binary l (.is false) :: fs => wants (.binary l (.is true) :: fs)
  | fs => wants (.unary .not :: fs)

/-- The next word or sign before an operand. -/
def begin? (fs : List Frame) : Lexeme → Option State
  | .operand text => some (holds (.leaf text) fs)
  | .hole i => some (holds (.hole i) fs)
  | .product text => if text = "*" then some (holds .star fs) else none
  | .opening b => some (wants (.bracket b :: fs))
  | .closing .round =>
    match fs with
    | .call function :: fs => some (holds (.thunk function) fs)
    | _ => none
  | .separator text => some (wants (.unary (.separator text) :: fs))
  | .not => some (deny fs)
  | .sum text => some (wants (.unary (.sign text) :: fs))
  | .lead text => some (wants (.unary (.lead text) :: fs))
  | _ => none

/-- The next word or sign after an operand. -/
def continue? (t : Tree) (fs : List Frame) : Lexeme → Option State
  | .opening .round =>
    match t with
    | .leaf function => some (wants (.call function :: fs))
    | _ => none
  | .closing b => close? b t fs
  | .separator text => some (operate (.separator text) t fs)
  | .or => some (operate .or t fs)
  | .and => some (conjoin t fs)
  | .not => some (negates t fs)
  | .is => some (operate (.is false) t fs)
  | .between => some (bound false t fs)
  | .test text => some (operate (.test false text) t fs)
  | .escape => some (operate .escape t fs)
  | .sum text => some (operate (.sum text) t fs)
  | .product text => some (operate (.product text) t fs)
  | .joint text => some (operate (.joint text) t fs)
  | _ => none

/-- The next word or sign after an operand and a `NOT`. -/
def negate? (t : Tree) (fs : List Frame) : Lexeme → Option State
  | .between => some (bound true t fs)
  | .test text => some (operate (.test true text) t fs)
  | _ => none

/-- The next word or sign, wherever the reading stands. -/
def next? : State → Lexeme → Option State
  | wants fs => begin? fs
  | holds t fs => continue? t fs
  | negates t fs => negate? t fs

/-- Reads words and signs one after the other. -/
def run? (s : State) (xs : List Lexeme) : Option State :=
  xs.foldlM next? s

/-- The expression that has been read, when nothing is left open. -/
def finish? : State → Option Tree
  | holds t fs =>
    match reduce 0 t fs with
    | (t, []) => some t
    | _ => none
  | _ => none

end State

/-- The expression that words and signs are. -/
def parse? (xs : List Lexeme) : Option Tree := do
  let s ← (State.wants []).run? xs
  let t ← s.finish?
  if t.Complete then some t else none

/-! ## What is read is kept -/

/-- What a frame has been read from. -/
def Frame.lexemes : Frame → List Lexeme
  | bracket b => [.opening b]
  | call function => [.operand function, .opening .round]
  | unary p => [p.lexeme]
  | binary l o => l.lexemes ++ o.lexemes
  | low negated e => e.lexemes ++ (negation negated ++ [.between])
  | high negated e lower =>
    e.lexemes ++ (negation negated ++ (.between :: (lower.lexemes ++ [.and])))

/-- What the frames of a stack have been read from. -/
def written : List Frame → List Lexeme
  | [] => []
  | f :: fs => written fs ++ f.lexemes

namespace State

/-- What a state has been read from. -/
def lexemes : State → List Lexeme
  | wants fs => written fs
  | holds t fs => written fs ++ t.lexemes
  | negates t fs => written fs ++ (t.lexemes ++ [.not])

end State

theorem Frame.lexemes_of_joined? {n : Nat} {t t' : Tree} {f : Frame} (h : f.joined? n t = some t') :
    t'.lexemes = f.lexemes ++ t.lexemes := by
  cases f with
  | unary p | binary l o | high negated e lower =>
    unfold joined? at h
    obtain ⟨-, heq⟩ := Option.ite_none_right_eq_some.1 h
    cases heq
    simp [Tree.lexemes, Frame.lexemes]
  | bracket _ | call _ | low _ _ => cases h

theorem written_reduce (n : Nat) (t : Tree) (fs : List Frame) :
    written (reduce n t fs).2 ++ (reduce n t fs).1.lexemes = written fs ++ t.lexemes := by
  induction fs generalizing t with
  | nil => rfl
  | cons f fs ih =>
    rw [reduce]
    split
    · rename_i t' ht'
      rw [ih, Frame.lexemes_of_joined? ht', written, List.append_assoc]
    · rfl

namespace State

theorem lexemes_operate (o : Binary) (t : Tree) (fs : List Frame) :
    (operate o t fs).lexemes = written fs ++ t.lexemes ++ o.lexemes := by
  rw [← written_reduce o.level t fs]
  simp [operate, lexemes, written, Frame.lexemes]

theorem lexemes_bound (negated : Bool) (t : Tree) (fs : List Frame) :
    (bound negated t fs).lexemes =
      written fs ++ t.lexemes ++ (negation negated ++ [.between]) := by
  rw [← written_reduce comparison t fs]
  simp [bound, lexemes, written, Frame.lexemes]

theorem lexemes_conjoin (t : Tree) (fs : List Frame) :
    (conjoin t fs).lexemes = written fs ++ t.lexemes ++ [.and] := by
  rw [← written_reduce Binary.and.level t fs, conjoin]
  split <;> rename_i heq <;>
    simp [heq, lexemes, written, Frame.lexemes, Binary.lexemes]

theorem lexemes_deny (fs : List Frame) : (deny fs).lexemes = written fs ++ [.not] := by
  unfold deny
  split <;> simp [lexemes, written, Frame.lexemes, Unary.lexeme, Binary.lexemes, negation]

theorem lexemes_of_close? {b : Bracket} {t : Tree} {fs : List Frame} {s : State}
    (h : close? b t fs = some s) : s.lexemes = written fs ++ t.lexemes ++ [.closing b] := by
  rw [← written_reduce 0 t fs]
  unfold close? at h
  split at h
  · rename_i heq
    obtain ⟨rfl, hs⟩ := Option.ite_none_right_eq_some.1 h
    cases hs
    simp [heq, lexemes, written, Frame.lexemes, Tree.lexemes]
  · rename_i heq
    obtain ⟨rfl, hs⟩ := Option.ite_none_right_eq_some.1 h
    cases hs
    simp [heq, lexemes, written, Frame.lexemes, Tree.lexemes]
  · cases h

theorem lexemes_of_begin? {fs : List Frame} {x : Lexeme} {s : State} (h : begin? fs x = some s) :
    s.lexemes = written fs ++ [x] := by
  unfold begin? at h
  split at h
  case h_3 =>
    obtain ⟨rfl, hs⟩ := Option.ite_none_right_eq_some.1 h
    cases hs
    rfl
  case h_5 =>
    split at h
    · cases h
      simp [lexemes, written, Frame.lexemes, Tree.lexemes]
    · cases h
  case h_7 =>
    cases h
    exact lexemes_deny fs
  case h_10 => cases h
  all_goals
    cases h
    rfl

theorem lexemes_of_continue? {t : Tree} {fs : List Frame} {x : Lexeme} {s : State}
    (h : continue? t fs x = some s) : s.lexemes = written fs ++ t.lexemes ++ [x] := by
  unfold continue? at h
  split at h
  case h_1 =>
    split at h
    · cases h
      simp [lexemes, written, Frame.lexemes, Tree.lexemes]
    · cases h
  case h_2 => exact lexemes_of_close? h
  case h_5 =>
    cases h
    exact lexemes_conjoin t fs
  case h_6 =>
    cases h
    simp [lexemes]
  case h_8 =>
    cases h
    exact lexemes_bound false t fs
  case h_14 => cases h
  all_goals
    cases h
    exact lexemes_operate _ t fs

theorem lexemes_of_negate? {t : Tree} {fs : List Frame} {x : Lexeme} {s : State}
    (h : negate? t fs x = some s) : s.lexemes = written fs ++ (t.lexemes ++ [.not]) ++ [x] := by
  unfold negate? at h
  split at h
  · cases h
    simp [lexemes_bound, negation]
  · cases h
    simp [lexemes_operate, Binary.lexemes, negation]
  · cases h

theorem lexemes_of_next? {s s' : State} {x : Lexeme} (h : s.next? x = some s') :
    s'.lexemes = s.lexemes ++ [x] := by
  cases s with
  | wants fs => exact lexemes_of_begin? h
  | holds t fs => exact lexemes_of_continue? h
  | negates t fs => exact lexemes_of_negate? h

theorem lexemes_of_run? {s s' : State} {xs : List Lexeme} (h : s.run? xs = some s') :
    s'.lexemes = s.lexemes ++ xs := by
  induction xs generalizing s with
  | nil =>
    cases h
    rw [List.append_nil]
  | cons x xs ih =>
    rw [run?, List.foldlM_cons] at h
    obtain ⟨s'', hx, hxs⟩ := Option.bind_eq_some_iff.1 h
    rw [ih hxs, lexemes_of_next? hx, List.append_assoc, List.singleton_append]

theorem lexemes_of_finish? {s : State} {t : Tree} (h : s.finish? = some t) :
    t.lexemes = s.lexemes := by
  unfold finish? at h
  split at h
  · rename_i t₀ fs
    split at h
    · rename_i heq
      cases h
      rw [lexemes, ← written_reduce 0 t₀ fs, heq]
      rfl
    · cases h
  · cases h

end State

/-! ## Every expression is read -/

namespace Tree

/-- The operand that an expression ends in. -/
def tip : Tree → Tree
  | unary _ t => t.tip
  | binary _ _ r => r.tip
  | between _ _ _ upper => upper.tip
  | t => t

/-- The operators that wait for the end of an expression, the last one first. -/
def spine : Tree → List Frame
  | unary p t => t.spine ++ [.unary p]
  | binary l o r => r.spine ++ [.binary l o]
  | between negated e lower upper => upper.spine ++ [.high negated e lower]
  | _ => []

end Tree

theorem Binary.level_le_left (o : Binary) : o.level ≤ o.left := by
  cases o <;> simp [Binary.level, Binary.left, comparison, arithmetic]

theorem Binary.level_ne (o : Binary) (p : Unary) : o.level ≠ p.level := by
  cases o <;> cases p <;> simp [Binary.level, Unary.level, comparison, arithmetic]

/-- The operators at the end of an expression are finished by whatever binds less tightly. -/
theorem reduce_spine {t : Tree} (ht : t.Grouped) {n : Nat} (hn : n ≤ t.level) (fs : List Frame) :
    reduce n t.tip (t.spine ++ fs) = reduce n t fs := by
  induction t generalizing fs with
  | leaf _ | hole _ | star | bracket _ _ _ | call _ _ _ | thunk _ => rfl
  | unary p t ih =>
    have hp : n ≤ p.level := hn
    rw [Tree.tip, Tree.spine, List.append_assoc, ih ht.2 (Nat.le_trans hp ht.1),
      List.singleton_append, reduce, Frame.joined?, if_pos hp]
  | binary l o r _ ih =>
    have ho : n ≤ o.level := hn
    rw [Tree.tip, Tree.spine, List.append_assoc,
      ih ht.2.2 (Nat.le_trans ho (Nat.le_of_succ_le ht.2.1)), List.singleton_append, reduce,
      Frame.joined?, if_pos ho]
  | between negated e lower upper _ _ ih =>
    have hc : n ≤ comparison := hn
    rw [Tree.tip, Tree.spine, List.append_assoc,
      ih ht.2.2.2 (Nat.le_trans hc (Nat.le_of_succ_le ht.2.2.1)), List.singleton_append, reduce,
      Frame.joined?, if_pos hc]

/-- How tightly the next operand must bind. -/
def demand : List Frame → Nat
  | [] => 0
  | f :: _ => f.demand

/-- An operator finishes nothing that demands no more than it has. -/
theorem reduce_eq {n : Nat} (hn : ∀ p : Unary, n ≠ p.level) (t : Tree) {fs : List Frame}
    (h : demand fs ≤ n) : reduce n t fs = (t, fs) := by
  cases fs with
  | nil => rfl
  | cons f fs =>
    have hf : f.joined? n t = none := by
      cases f with
      | bracket _ | call _ | low _ _ => rfl
      | unary p => exact if_neg fun hle => hn p (Nat.le_antisymm hle h)
      | binary l o => exact if_neg (Nat.not_le.2 h)
      | high negated e lower => exact if_neg (Nat.not_le.2 h)
    rw [reduce, hf]

theorem reduce_tip {t : Tree} (ht : t.Grouped) {n : Nat} (hn : n ≤ t.level)
    (hne : ∀ p : Unary, n ≠ p.level) {fs : List Frame} (hfs : demand fs ≤ n) :
    reduce n t.tip (t.spine ++ fs) = (t, fs) := by
  rw [reduce_spine ht hn, reduce_eq hne t hfs]

namespace State

theorem run?_append (s : State) (xs ys : List Lexeme) :
    s.run? (xs ++ ys) = (s.run? xs).bind (·.run? ys) :=
  List.foldlM_append

theorem run?_cons (s : State) (x : Lexeme) (xs : List Lexeme) :
    s.run? (x :: xs) = (s.next? x).bind (·.run? xs) :=
  List.foldlM_cons

theorem operate_tip {t : Tree} (ht : t.Grouped) {o : Binary} (ho : o.left ≤ t.level)
    {fs : List Frame} (hfs : demand fs ≤ o.level) :
    operate o t.tip (t.spine ++ fs) = wants (.binary t o :: fs) := by
  rw [operate, reduce_tip ht (Nat.le_trans o.level_le_left ho) o.level_ne hfs]

theorem bound_tip {t : Tree} (ht : t.Grouped) (hlevel : arithmetic ≤ t.level) {fs : List Frame}
    (hfs : demand fs ≤ comparison) (negated : Bool) :
    bound negated t.tip (t.spine ++ fs) = wants (.low negated t :: fs) := by
  rw [bound, @reduce_tip t ht comparison (Nat.le_of_succ_le hlevel) Binary.escape.level_ne fs hfs]

theorem conjoin_tip {t : Tree} (ht : t.Grouped) (hlevel : Binary.and.level ≤ t.level)
    {fs : List Frame} (hfs : demand fs ≤ Binary.and.level) :
    conjoin t.tip (t.spine ++ fs) = wants (.binary t .and :: fs) := by
  rw [conjoin, reduce_tip ht hlevel Binary.and.level_ne hfs]
  split
  · rename_i heq
    cases heq
    have hlow : arithmetic ≤ Binary.and.level := hfs
    exact absurd hlow (by decide)
  · rename_i heq
    cases heq
    rfl

theorem conjoin_low {t : Tree} (ht : t.Grouped) (hlevel : arithmetic ≤ t.level) (negated : Bool)
    (e : Tree) (fs : List Frame) :
    conjoin t.tip (t.spine ++ .low negated e :: fs) = wants (.high negated e t :: fs) := by
  rw [conjoin, reduce_spine ht (Nat.le_trans (by decide) hlevel)]
  rfl

theorem close?_tip {t : Tree} (ht : t.Grouped) (b : Bracket) (fs : List Frame) :
    close? b t.tip (t.spine ++ .bracket b :: fs) = some (holds (.bracket b t) fs) := by
  rw [close?, reduce_spine ht (Nat.zero_le _)]
  exact if_pos rfl

theorem close?_call {t : Tree} (ht : t.Grouped) (function : String) (fs : List Frame) :
    close? .round t.tip (t.spine ++ .call function :: fs) = some (holds (.call function t) fs) := by
  rw [close?, reduce_spine ht (Nat.zero_le _)]
  rfl

/-- An operator after its first operand. -/
theorem run?_operator {t : Tree} (ht : t.Grouped) {o : Binary} (ho : o.left ≤ t.level)
    {fs : List Frame} (hfs : demand fs ≤ o.level) :
    (holds t.tip (t.spine ++ fs)).run? o.lexemes = some (wants (.binary t o :: fs)) := by
  have hone : ∀ {x}, (holds t.tip (t.spine ++ fs)).next? x =
      some (operate o t.tip (t.spine ++ fs)) →
      (holds t.tip (t.spine ++ fs)).run? [x] = some (wants (.binary t o :: fs)) := by
    intro x hx
    rw [run?_cons, hx, operate_tip ht ho hfs]
    rfl
  cases o with
  | and =>
    rw [Binary.lexemes, run?_cons, next?, continue?, conjoin_tip ht ho hfs]
    rfl
  | test negated text =>
    cases negated with
    | false => exact hone rfl
    | true =>
      rw [Binary.lexemes, negation, if_pos rfl, List.singleton_append, run?_cons, next?, continue?,
        Option.bind_some, run?_cons, next?, negate?, operate_tip ht ho hfs]
      rfl
  | is negated =>
    cases negated with
    | false => exact hone rfl
    | true =>
      -- the word `NOT` belongs to the operator, which has been read without it
      have his : operate (.is false) t.tip (t.spine ++ fs) = wants (.binary t (.is false) :: fs) :=
        @operate_tip _ ht (.is false) ho _ hfs
      rw [Binary.lexemes, run?_cons, next?, continue?, his]
      rfl
  | separator _ | or | escape | sum _ | product _ | joint _ => exact hone rfl

/-- The word `NOT` before an operand is an operator of its own, where a negation may stand. -/
theorem deny_eq {fs : List Frame} (h : demand fs ≤ Unary.not.level) :
    deny fs = wants (.unary .not :: fs) := by
  unfold deny
  split
  · have his : (Binary.is false).right ≤ Unary.not.level := h
    exact absurd his (by decide)
  · rfl

theorem begin?_unary {p : Unary} {fs : List Frame} (h : demand fs ≤ p.level) :
    begin? fs p.lexeme = some (wants (.unary p :: fs)) := by
  cases p with
  | not => exact congrArg some (deny_eq h)
  | separator _ | sign _ | lead _ => rfl

/-- An expression is read where it binds as tightly as is demanded. -/
theorem run?_lexemes {t : Tree} (ht : t.Grouped) (fs : List Frame) (hfs : demand fs ≤ t.level) :
    (wants fs).run? t.lexemes = some (holds t.tip (t.spine ++ fs)) := by
  induction t generalizing fs with
  | leaf _ | hole _ | star | thunk _ => rfl
  | bracket b inner ih =>
    rw [Tree.lexemes, run?_cons, next?, begin?, Option.bind_some, run?_append,
      ih ht _ (Nat.zero_le _), Option.bind_some, run?_cons, next?, continue?,
      @close?_tip inner ht]
    rfl
  | call function arguments ih =>
    rw [Tree.lexemes, run?_cons, next?, begin?, Option.bind_some, run?_cons, next?, continue?,
      Option.bind_some, run?_append, ih ht _ (Nat.zero_le _), Option.bind_some, run?_cons, next?,
      continue?, @close?_call arguments ht]
    rfl
  | unary p t ih =>
    rw [Tree.lexemes, run?_cons, next?, begin?_unary hfs, Option.bind_some,
      ih ht.2 (.unary p :: fs) ht.1, Tree.tip, Tree.spine, List.append_assoc,
      List.singleton_append]
  | binary l o r ihl ihr =>
    have hlevel : demand fs ≤ o.level := hfs
    have hleft : demand fs ≤ l.level :=
      Nat.le_trans hlevel (Nat.le_trans o.level_le_left ht.1.1)
    rw [Tree.lexemes, run?_append, ihl ht.1.2 fs hleft, Option.bind_some, run?_append,
      run?_operator ht.1.2 ht.1.1 hlevel, Option.bind_some,
      ihr ht.2.2 (.binary l o :: fs) ht.2.1, Tree.tip, Tree.spine, List.append_assoc,
      List.singleton_append]
  | between negated e lower upper ihe ihlower ihupper =>
    have hlevel : demand fs ≤ comparison := hfs
    obtain ⟨⟨he, het⟩, ⟨hlower, hlowert⟩, hupper, huppert⟩ := ht
    have hbetween : (holds e.tip (e.spine ++ fs)).run? (negation negated ++ [.between]) =
        some (wants (.low negated e :: fs)) := by
      cases negated with
      | false =>
        rw [negation, if_neg Bool.false_ne_true, List.nil_append, run?_cons, next?, continue?,
          bound_tip het he hlevel]
        rfl
      | true =>
        rw [negation, if_pos rfl, List.singleton_append, run?_cons, next?, continue?,
          Option.bind_some, run?_cons, next?, negate?, bound_tip het he hlevel]
        rfl
    rw [Tree.lexemes, run?_append, ihe het fs (Nat.le_trans hlevel (Nat.le_of_succ_le he)),
      Option.bind_some, ← List.singleton_append, ← List.append_assoc, run?_append, hbetween,
      Option.bind_some, run?_append, ihlower hlowert (.low negated e :: fs) hlower,
      Option.bind_some, run?_cons, next?, continue?, conjoin_low hlowert hlower,
      Option.bind_some, ihupper huppert (.high negated e lower :: fs) hupper, Tree.tip,
      Tree.spine, List.append_assoc, List.singleton_append]

theorem finish?_tip {t : Tree} (ht : t.Grouped) :
    (holds t.tip (t.spine ++ [])).finish? = some t := by
  rw [finish?, reduce_spine ht (Nat.zero_le _)]
  rfl

end State

/-! ## Readings -/

/-- Words and signs are read as an expression exactly if they are its words and signs and its
operators have the operands they demand. -/
theorem parse?_eq_some {xs : List Lexeme} {t : Tree} :
    parse? xs = some t ↔ t.lexemes = xs ∧ t.Complete := by
  constructor
  · intro h
    obtain ⟨s, hs, h⟩ := Option.bind_eq_some_iff.1 h
    obtain ⟨t', ht', h⟩ := Option.bind_eq_some_iff.1 h
    obtain ⟨hcomplete, heq⟩ := Option.ite_none_right_eq_some.1 h
    cases heq
    refine ⟨?_, hcomplete⟩
    rw [State.lexemes_of_finish? ht', State.lexemes_of_run? hs]
    rfl
  · rintro ⟨rfl, h⟩
    unfold parse?
    rw [State.run?_lexemes h.1 [] (Nat.zero_le _), Option.bind_eq_bind, Option.bind_some,
      State.finish?_tip h.1]
    exact if_pos h

/-- Two expressions of the same words and signs are the same. -/
theorem Tree.eq_of_lexemes_eq {t u : Tree} (ht : t.Complete) (hu : u.Complete)
    (h : t.lexemes = u.lexemes) : t = u :=
  Option.some.inj ((parse?_eq_some.2 ⟨h, ht⟩).symm.trans (parse?_eq_some.2 ⟨rfl, hu⟩))

end Rollup.Sql.Precedence
