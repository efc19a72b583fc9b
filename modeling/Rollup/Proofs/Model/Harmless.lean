/-
What an accepted value does to the formula it is put into. No accepted value that is not listed has
a quote, a bracket, a separator, a line break or the beginning of a block comment. Two hyphens in a
row begin a line comment, and just those free texts that have them are let through: numbers and the
two words never have them.

A value without all these leaves the place it is put at as it was: what stood in no quotes and no
comment still does, with the same brackets open and no further separator. Only a hyphen before the
value may make the beginning of a comment together with its first character.
-/
import Mathlib.Data.List.Chain
import Rollup.Proofs.Model.Values
import Rollup.Proofs.Sql.Lexing
import Rollup.Proofs.Text.Classes

namespace Rollup

namespace Sql

open Precedence (Quotes)

/-! ## Characters that end something -/

/-- What opens or closes a group. -/
def brackets : List Char :=
  ['(', ')', '[', ']', '{', '}']

/-- What ends an expression or a statement. -/
def enders : List Char :=
  [',', ';']

/-- What opens or closes a literal or a quoted name. -/
def quoteMarks : List Char :=
  ['\'', '"', '\x60']

/-- What ends a line. -/
def lineBreaks : List Char :=
  ['\n', '\x0b', '\x0c', '\r', '\u0085', '\u2028', '\u2029']

/-- The beginnings of comments. -/
def commentOpeners : List (List Char) :=
  [['-', '-'], ['/', '*']]

/-- A text without quotes, brackets, commas, semicolons, line breaks and beginnings of comments. -/
structure Harmless (cs : List Char) : Prop where
  ends : ∀ c ∈ cs, c ∉ quoteMarks ++ brackets ++ enders ++ lineBreaks
  comments : ∀ opener ∈ commentOpeners, ¬ opener <:+: cs

/-! ## Places in a text -/

/-- What a place is within. -/
inductive Within where
  | code
  | quotes (q : Quotes)
  | lineComment
  | blockComment
  deriving DecidableEq, Repr

/-- A place in a SQL text. -/
structure Spot where
  within : Within := .code
  /-- The brackets, commas and semicolons before it that are in no quotes and no comment, the last
  first. -/
  passed : List Char := []
  /-- The character before it. -/
  last : Option Char := none
  deriving DecidableEq, Repr

namespace Spot

/-- What the next character leads to. -/
def leads (d : Dialect) (s : Spot) (c : Char) : Within :=
  match s.within with
  | .code =>
    if s.last = some '-' ∧ c = '-' then .lineComment
    else if s.last = some '/' ∧ c = '*' then .blockComment
    else (Quotes.opened? d c).elim .code .quotes
  | .quotes q => if c = q.closing then .code else .quotes q
  | .lineComment => if c ∈ lineBreaks then .code else .lineComment
  | .blockComment => if s.last = some '*' ∧ c = '/' then .code else .blockComment

/-- The place behind the next character. -/
def next (d : Dialect) (s : Spot) (c : Char) : Spot where
  within := s.leads d c
  passed := if s.within = .code ∧ c ∈ brackets ++ enders then c :: s.passed else s.passed
  last := some c

/-- The place behind a text. -/
def after (d : Dialect) (s : Spot) (cs : List Char) : Spot :=
  cs.foldl (next d) s

/-- Neither place is in other quotes or another comment than the other, and what brackets, commas and
semicolons there are stand before both. -/
def Alike (s t : Spot) : Prop :=
  s.within = t.within ∧ s.passed = t.passed

/-- The next character does not begin a line comment together with the last one. -/
def Clear (s : Spot) (cs : List Char) : Prop :=
  s.last = some '-' → cs.head? ≠ some '-'

end Spot

end Sql

open Sql

/-! ## Hyphens -/

/-- No two hyphens in a row. -/
def HyphensApart (cs : List Char) : Prop :=
  cs.IsChain fun a b => ¬ (a = '-' ∧ b = '-')

theorem hyphensApart_iff {cs : List Char} : HyphensApart cs ↔ ¬ ['-', '-'] <:+: cs := by
  constructor
  · rintro h ⟨before, behind, rfl⟩
    exact List.isChain_pair.1 h.left_of_append.right_of_append ⟨rfl, rfl⟩
  · intro h
    refine (List.isChain_isInfix cs).imp fun a b hinside hab => h ?_
    rwa [hab.1, hab.2] at hinside

theorem hyphensApart_of_not_mem {cs : List Char} (h : '-' ∉ cs) : HyphensApart cs := by
  rw [hyphensApart_iff]
  exact fun hinside => h (hinside.subset List.mem_cons_self)

/-- Behind a text without hyphens nothing changes. -/
theorem HyphensApart.append {as bs : List Char} (ha : '-' ∉ as) (hb : HyphensApart bs) :
    HyphensApart (as ++ bs) := by
  refine List.IsChain.append (hyphensApart_of_not_mem ha) hb fun x hx y _ hxy => ha ?_
  rw [← hxy.1]
  exact List.mem_of_getLast? hx

/-- A sign may stand before a text that begins with no hyphen. -/
theorem hyphensApart_of_takeSign {cs : List Char} (hhead : (takeSign cs).2.head? ≠ some '-')
    (h : HyphensApart (takeSign cs).2) : HyphensApart cs := by
  have hcons : ∀ {c : Char} {rest : List Char}, rest.head? ≠ some '-' → HyphensApart rest →
      HyphensApart (c :: rest) := by
    intro c rest hhead hrest
    refine List.IsChain.cons hrest fun y hy hcy => hhead ?_
    rw [← hcy.2]
    exact hy
  unfold takeSign at hhead h
  split at h
  · exact hcons hhead h
  · exact hcons hhead h
  · exact h

theorem hyphen_not_mem_of_readNat? {cs : List Char} {n : Nat} (h : readNat? cs = some n) :
    '-' ∉ cs := by
  unfold readNat? at h
  split at h
  · rename_i hdigits
    rw [Bool.and_eq_true, List.all_eq_true] at hdigits
    exact fun hmem => absurd (hdigits.2 _ hmem) (by decide)
  · cases h

theorem hyphensApart_of_readInt? {cs : List Char} {n : Int} (h : readInt? cs = some n) :
    HyphensApart cs := by
  obtain ⟨k, hk, -⟩ := Option.map_eq_some_iff.1 h
  obtain ⟨l, hl, -⟩ := Option.bind_eq_some_iff.1 hk
  have hdigits : '-' ∉ (takeSign cs).2 := hyphen_not_mem_of_readNat? hl
  apply hyphensApart_of_takeSign
  · exact fun hhead => hdigits (List.mem_of_head? hhead)
  · exact hyphensApart_of_not_mem hdigits

theorem hyphensApart_of_readExponent? {cs : List Char} {e : Int} (h : readExponent? cs = some e) :
    HyphensApart cs := by
  cases cs with
  | nil => exact hyphensApart_of_not_mem List.not_mem_nil
  | cons c cs =>
    rw [readExponent?] at h
    split at h
    · rename_i hmark
      have hc : '-' ∉ [c] := by
        intro hmem
        rw [List.mem_singleton] at hmem
        subst hmem
        cases hmark
      exact HyphensApart.append hc (hyphensApart_of_readInt? h)
    · cases h

theorem hyphensApart_of_readDouble? {cs : List Char} {x : Double} (h : readDouble? cs = some x)
    (hx : x.isFinite = true) : HyphensApart cs := by
  obtain ⟨digits, tail, e, hparts, hne, hdigits, htail⟩ := parts_of_readMagnitude? h hx
  have hrest : (takeSign cs).2 = digits ++ tail := hparts
  have hhyphen : '-' ∉ digits := by
    intro hmem
    rcases hdigits _ hmem with hdigit | hpoint
    · cases hdigit
    · cases hpoint
  apply hyphensApart_of_takeSign
  · -- the first character is one of the digits
    rw [hrest, List.head?_append_of_ne_nil _ hne]
    exact fun hhead => hhyphen (List.mem_of_head? hhead)
  · rw [hrest]
    exact .append hhyphen (hyphensApart_of_readExponent? htail)

/-! ## Accepted values -/

namespace Parameter

variable {p : Parameter} {v : String}

/-- Two hyphens in a row are let through in free texts only. -/
theorem isFreeText_of_check (hunlisted : p.allowed = none) (h : p.check v = .ok ())
    (hhyphens : ['-', '-'] <:+: v.toList) : p.valueType.isFreeText = true := by
  have hnot : ¬ HyphensApart v.toList := fun hapart => hyphensApart_iff.1 hapart hhyphens
  rcases cases_of_check hunlisted h with ⟨n, hn⟩ | ⟨x, hx, hfinite⟩ | rfl | rfl | ⟨hfree, -⟩
  · exact (hnot (hyphensApart_of_readInt? hn)).elim
  · exact (hnot (hyphensApart_of_readDouble? hx hfinite)).elim
  · exact (hnot (hyphensApart_of_not_mem (by decide))).elim
  · exact (hnot (hyphensApart_of_not_mem (by decide))).elim
  · exact hfree

/-- The plain characters are none of those that end something. -/
theorem not_mem_of_isPlainChar {c : Char} (h : isPlainChar c = true) :
    c ∉ quoteMarks ++ brackets ++ enders ++ lineBreaks ∧ c ≠ '/' ∧ c ≠ '*' := by
  have hnone : ∀ c ∈ '/' :: '*' :: (quoteMarks ++ brackets ++ enders ++ lineBreaks),
      (!isPlainChar c) = true := by
    refine List.all_eq_true.1 ?_
    simp only [isPlainChar, isSafeChar, Text.isAlphanumeric, Text.RangeSet.contains_eq_any]
    decide +kernel
  refine ⟨fun hmem => ?_, ?_, ?_⟩
  · have hplain := hnone c (List.mem_cons_of_mem _ (List.mem_cons_of_mem _ hmem))
    rw [h] at hplain
    cases hplain
  · rintro rfl
    cases h
  · rintro rfl
    cases h

theorem harmless_of_check (hunlisted : p.allowed = none) (h : p.check v = .ok ())
    (hapart : HyphensApart v.toList) : Harmless v.toList := by
  have hplain := p.plain_of_check hunlisted h
  refine ⟨fun c hc => (not_mem_of_isPlainChar (hplain c hc)).1, ?_⟩
  rintro opener hopener hinside
  simp only [commentOpeners, List.mem_cons, List.not_mem_nil, or_false] at hopener
  rcases hopener with rfl | rfl
  · exact hyphensApart_iff.1 hapart hinside
  · have hslash := hinside.subset List.mem_cons_self
    exact (not_mem_of_isPlainChar (hplain _ hslash)).2.1 rfl

end Parameter

/-! ## The place behind a value -/

namespace Sql.Spot

variable {d : Dialect} {s : Spot}

/-- A plain character that does not make a comment leaves the place as it was. -/
theorem next_alike {c : Char} (hc : isPlainChar c = true) (hclear : s.last = some '-' → c ≠ '-') :
    (s.next d c).Alike s := by
  obtain ⟨hends, hslash, hstar⟩ := Parameter.not_mem_of_isPlainChar hc
  simp only [List.mem_append, not_or] at hends
  obtain ⟨⟨⟨hquote, hbracket⟩, hender⟩, hbreak⟩ := hends
  constructor
  · cases hwithin : s.within with
    | code =>
      have hopen : Precedence.Quotes.opened? d c = none := by
        unfold Precedence.Quotes.opened?
        split <;> simp_all [quoteMarks, brackets]
      simp only [next, leads, hwithin, hopen, Option.elim]
      rw [if_neg fun h => hclear h.1 h.2, if_neg fun h => hstar h.2]
    | quotes q =>
      have hclosing : c ≠ q.closing := by
        rintro rfl
        cases q <;> simp_all [Precedence.Quotes.closing, quoteMarks, brackets]
      simp only [next, leads, hwithin, if_neg hclosing]
    | lineComment => simp only [next, leads, hwithin, if_neg hbreak]
    | blockComment => simp only [next, leads, hwithin, if_neg fun h : _ ∧ c = '/' => hslash h.2]
  · have hpassed : c ∉ brackets ++ enders := by
      simp only [List.mem_append, not_or]
      exact ⟨hbracket, hender⟩
    exact if_neg fun h => hpassed h.2

theorem after_alike {cs : List Char} (hcs : ∀ c ∈ cs, isPlainChar c = true)
    (hapart : HyphensApart cs) (hclear : s.Clear cs) : (s.after d cs).Alike s := by
  induction cs generalizing s with
  | nil => exact ⟨rfl, rfl⟩
  | cons c cs ih =>
    obtain ⟨hc, hcs⟩ := List.forall_mem_cons.1 hcs
    obtain ⟨hnext, hrest⟩ := List.isChain_cons.1 hapart
    have hfirst : (s.next d c).Alike s := next_alike hc fun hlast heq => by
      exact hclear hlast (by rw [heq]; rfl)
    have hlater : (s.next d c).Clear cs := fun hlast hhead =>
      hnext '-' hhead ⟨Option.some.inj hlast, rfl⟩
    obtain ⟨hwithin, hpassed⟩ := ih hcs hrest hlater
    exact ⟨hwithin.trans hfirst.1, hpassed.trans hfirst.2⟩

end Sql.Spot

/-- An accepted value that is not listed is harmless unless it is a free text with two hyphens in a
row; and a harmless one leaves any place in a SQL text as it was, unless a hyphen at its beginning
meets another. -/
theorem Parameter.harmless_iff_of_check {p : Parameter} {v : String} (hunlisted : p.allowed = none)
    (h : p.check v = .ok ()) :
    (Harmless v.toList ↔ ¬ (p.valueType.isFreeText = true ∧ ['-', '-'] <:+: v.toList)) ∧
      (Harmless v.toList → ∀ (d : Dialect) (s : Spot), s.Clear v.toList →
        (s.after d v.toList).Alike s) := by
  constructor
  · constructor
    · rintro hharmless ⟨-, hhyphens⟩
      exact hharmless.comments _ (by decide) hhyphens
    · intro hnot
      refine harmless_of_check hunlisted h (hyphensApart_iff.2 fun hhyphens => ?_)
      exact hnot ⟨isFreeText_of_check hunlisted h hhyphens, hhyphens⟩
  · intro hharmless d s hclear
    have hapart := hyphensApart_iff.2 (hharmless.comments _ (by decide))
    exact Spot.after_alike (p.plain_of_check hunlisted h) hapart hclear

/-- A date format has single hyphens, and a text in quotes that it is put into does not end. -/
theorem Parameter.harmless_iff_of_check_format :
    let format : Parameter := { name := "format" }
    let formula : Spot := Spot.after .postgres {} "TO_CHAR(played, '".toList
    format.check "YYYY-MM" = .ok () ∧ Harmless "YYYY-MM".toList ∧
      (formula.after .postgres "YYYY-MM".toList).Alike formula ∧
      formula.within = .quotes .single ∧ formula.passed = [',', '('] := by
  intro format formula
  have hcheck : format.check "YYYY-MM" = .ok () := by decide +kernel
  obtain ⟨hiff, halike⟩ := Parameter.harmless_iff_of_check rfl hcheck
  have hharmless : Harmless "YYYY-MM".toList := hiff.2 fun h => absurd h.2 (by decide)
  exact ⟨hcheck, hharmless, halike hharmless .postgres formula fun _ => by decide, by decide, by decide⟩

/-- A free text may have the beginning of a comment, and then what follows it in its line is lost. -/
theorem Parameter.check_accepts_comment :
    let label : Parameter := { name := "label" }
    label.check "home --" = .ok () ∧ ¬ Harmless "home --".toList ∧
      (Spot.after .sqlite {} "home --".toList).within = .lineComment := by
  intro label
  refine ⟨by decide +kernel, fun h => ?_, by decide⟩
  exact h.comments ['-', '-'] (by decide) (by decide)

end Rollup
