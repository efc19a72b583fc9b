/-
The numbers of the clause that cuts a page out of the rows. The clause names the limit and the
offset that are asked for, and no number beside them but what a dialect fills in. A count is
written as a signed word, so from `2 ^ 63` on it comes out negative, less by `2 ^ 64` than what is
asked for.
-/
import Mathlib.Algebra.Ring.Int.Defs
import Mathlib.Algebra.Ring.Nat
import Rollup.Number.Literal
import Rollup.Sql.Select

namespace Rollup.Sql

/-! ## Numbers in a text -/

/-- The number that some digits are, when there are any. -/
def numberOf (negative : Bool) : (digits : List Char) → List Int
  | [] => []
  | ds => [if negative then -digitsValue ds else digitsValue ds]

/-- Reads the numbers of a text on from the digits of one; `negative` tells whether a minus sign
stands before them. -/
def numbersFrom (negative : Bool) (digits : List Char) : List Char → List Int
  | [] => numberOf negative digits
  | c :: cs =>
    if c.isDigit then numbersFrom negative (digits ++ [c]) cs
    else numberOf negative digits ++ numbersFrom (c == '-') [] cs

/-- The decimal numbers in a text from left to right: its runs of digits, each with the minus sign
that stands directly before it. -/
def numbersIn (text : String) : List Int :=
  numbersFrom false [] text.toList

theorem numbersFrom_digits (negative : Bool) (digits : List Char) {ds : List Char}
    (hds : ∀ c ∈ ds, c.isDigit = true) :
    numbersFrom negative digits ds = numberOf negative (digits ++ ds) := by
  induction ds generalizing digits with
  | nil => rw [numbersFrom, List.append_nil]
  | cons c ds ih =>
    obtain ⟨hc, hds⟩ := List.forall_mem_cons.1 hds
    rw [numbersFrom, if_pos hc, ih _ hds, List.append_assoc, List.singleton_append]

/-- A blank ends a number, and is no minus sign. -/
theorem numbersFrom_append_blank (negative : Bool) (digits as bs : List Char) :
    numbersFrom negative digits (as ++ ' ' :: bs) =
      numbersFrom negative digits as ++ numbersFrom false [] bs := by
  induction as generalizing negative digits with
  | nil => rfl
  | cons c as ih =>
    rw [List.cons_append, numbersFrom, numbersFrom]
    split
    · exact ih ..
    · rw [ih, List.append_assoc]

theorem numberOf_toDigits (negative : Bool) (n : Nat) :
    numberOf negative (Nat.toDigits 10 n) = [if negative then -(n : Int) else n] := by
  have hvalue : digitsValue (Nat.toDigits 10 n) = n := Nat.ofDigitChars_ten_toDigits
  cases hdigits : Nat.toDigits 10 n with
  | nil => exact absurd hdigits Nat.toDigits_ne_nil
  | cons c ds => rw [numberOf, ← hdigits, hvalue]; simp

/-- The text of an integer has this number in it and no other. -/
theorem numbersIn_toString (k : Int) : numbersIn (toString k) = [k] := by
  have hdigits (n : Nat) : ∀ c ∈ Nat.toDigits 10 n, c.isDigit = true :=
    fun _ => Nat.isDigit_of_mem_toDigits (by decide) (by decide)
  rw [numbersIn, Int.toString_eq_repr, Int.repr_eq_if]
  split
  case isTrue hk =>
    rw [Nat.toList_repr, numbersFrom_digits false [] (hdigits _), List.nil_append,
      numberOf_toDigits, if_neg Bool.false_ne_true, Int.toNat_of_nonneg hk]
  case isFalse hk =>
    have hminus : ("-" ++ (-k).toNat.repr).toList = '-' :: Nat.toDigits 10 (-k).toNat := by
      simp [Nat.toList_repr]
    rw [hminus, numbersFrom, if_neg (by decide), numbersFrom_digits _ [] (hdigits _),
      List.nil_append, numberOf_toDigits]
    simp only [numberOf, List.nil_append, beq_self_eq_true, if_true]
    rw [Int.toNat_of_nonneg (by omega), Int.neg_neg]

theorem numbersIn_word (w : Keyword) : numbersIn w.text = [] := by
  cases w <;> decide

/-! ## Numbers in a clause -/

variable {d : Dialect}

@[simp] theorem numbersIn_render_nil : numbersIn (render d []) = [] := rfl

theorem numbersIn_render_singleton (t : Token) :
    numbersIn (render d [t]) = numbersIn (t.render d) := by
  simp [render]

/-- Between blanks every token has its own numbers. -/
theorem numbersIn_render_spaced (t : Token) (ts : List Token) :
    numbersIn (render d (t :: .space :: ts)) =
      numbersIn (t.render d) ++ numbersIn (render d ts) := by
  have htext : (render d (t :: .space :: ts)).toList =
      (t.render d).toList ++ ' ' :: (render d ts).toList := by
    simp [render, Token.render]
  rw [numbersIn, htext, numbersFrom_append_blank]
  rfl

/-- A count as a signed word. -/
def wrapped (n : UInt64) : Int :=
  if n.toNat < 2 ^ 63 then n.toNat else n.toNat - 2 ^ 64

theorem toInt_eq_wrapped (n : UInt64) : n.toInt64.toInt = wrapped n := by
  have hcond : n.toInt64.toInt = _ := BitVec.toInt_eq_toNat_cond n.toBitVec
  rw [hcond, wrapped]
  split <;> split <;> simp_all <;> omega

theorem wrapped_eq_iff (n : UInt64) : wrapped n = n.toNat ↔ n.toNat < 2 ^ 63 := by
  rw [wrapped]
  split <;> omega

theorem wrapped_nonneg_iff (n : UInt64) : 0 ≤ wrapped n ↔ n.toNat < 2 ^ 63 := by
  have hlt := n.toNat_lt
  rw [wrapped]
  split <;> omega

theorem numbersIn_wordToken (w : Keyword) : numbersIn ((Token.word w).render d) = [] :=
  numbersIn_word w

theorem numbersIn_count (n : UInt64) : numbersIn ((countToken n).render d) = [wrapped n] := by
  rw [countToken, Token.render, numbersIn_toString, toInt_eq_wrapped]

namespace Page

variable (d) (p : Page)

/-- The counts that are asked for. -/
def asked : List UInt64 :=
  p.limit.toList ++ p.offset.toList

/-- The numbers that belong in the clause, in the order of its words, when a count that is asked for
is shown in some way. T-SQL puts the offset first, 0 when none is asked for; MySQL fills in the
greatest word when only an offset is asked for. -/
def stated (shown : UInt64 → Int) : List Int :=
  match d, p.limit, p.offset with
  | .tsql, limit, offset => (offset.map shown).getD 0 :: (limit.map shown).toList
  | .mysql, none, some n => [2 ^ 64 - 1, shown n]
  | _, limit, offset => (limit.map shown).toList ++ (offset.map shown).toList

/-- The clause has the numbers that belong in it, as signed words. -/
theorem numbersIn_clause : numbersIn (render d (p.tokens d)) = p.stated d wrapped := by
  have hgreatest : numbersIn ((Token.raw "18446744073709551615").render d) = [2 ^ 64 - 1] := by
    rw [Token.render]
    decide +kernel
  have hzero : wrapped 0 = 0 := by decide
  obtain ⟨limit, offset⟩ := p
  cases d <;> cases limit <;> cases offset <;>
    simp [tokens, limitOffset, stated, numbersIn_render_spaced, numbersIn_render_singleton,
      numbersIn_wordToken, numbersIn_count, hgreatest, hzero]

theorem stated_congr_iff {f g : UInt64 → Int} :
    p.stated d f = p.stated d g ↔ ∀ n ∈ p.asked, f n = g n := by
  obtain ⟨limit, offset⟩ := p
  cases d <;> cases limit <;> cases offset <;> simp [stated, asked, and_comm]

theorem stated_nonneg_iff {f : UInt64 → Int} :
    (∀ k ∈ p.stated d f, 0 ≤ k) ↔ ∀ n ∈ p.asked, 0 ≤ f n := by
  obtain ⟨limit, offset⟩ := p
  cases d <;> cases limit <;> cases offset <;> simp [stated, asked, and_comm]

/-- The numbers of the clause are those that belong in it, and none of them is negative, exactly
when the counts that are asked for are below `2 ^ 63`. One that is not is shown less by `2 ^ 64`. -/
theorem numbersIn_clause_iff :
    numbersIn (render d (p.tokens d)) = p.stated d wrapped ∧
    (numbersIn (render d (p.tokens d)) = p.stated d (fun n => n.toNat) ↔
      ∀ n ∈ p.asked, n.toNat < 2 ^ 63) ∧
    ((∀ k ∈ numbersIn (render d (p.tokens d)), 0 ≤ k) ↔ ∀ n ∈ p.asked, n.toNat < 2 ^ 63) := by
  refine ⟨p.numbersIn_clause d, ?_, ?_⟩
  · rw [numbersIn_clause, stated_congr_iff]
    simp only [wrapped_eq_iff]
  · rw [numbersIn_clause, stated_nonneg_iff]
    simp only [wrapped_nonneg_iff]

/-- Half of the greatest word, rounded up, is asked for as a limit. -/
theorem numbersIn_clause_half :
    numbersIn (render .postgres (tokens .postgres ⟨some 9223372036854775808, none⟩)) =
        [-9223372036854775808] ∧
      stated .postgres ⟨some 9223372036854775808, none⟩ (fun n => n.toNat) =
        [9223372036854775808] := by
  decide +kernel

end Page

end Rollup.Sql
