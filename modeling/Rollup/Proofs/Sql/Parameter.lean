/-
The parameters of expressions and statements, in the order their placeholders are written. The text
of a statement is read back: if the SQL texts of the model hold no placeholders of their own, the
placeholders met in it are those of its parameters.
-/
import Rollup.Proofs.Sql.Reading
import Mathlib.Data.List.Basic

namespace Rollup.Sql

/-- The position of a parameter, and no other token's. -/
def Token.position? : Token → Option Nat
  | .param position => some position
  | _ => none

/-- The parameters among some tokens. -/
def positions (ts : List Token) : List Nat :=
  ts.filterMap Token.position?

@[simp] theorem positions_append (ts us : List Token) :
    positions (ts ++ us) = positions ts ++ positions us :=
  List.filterMap_append

theorem positions_cons {t : Token} (h : t.position? = none) (ts : List Token) :
    positions (t :: ts) = positions ts :=
  List.filterMap_cons_none h

theorem toList_render (d : Dialect) (ts : List Token) :
    (render d ts).toList = ts.flatMap fun t => (t.render d).toList := by
  rw [render, String.toList_join, List.flatMap_map]

@[simp] theorem Expr.render_raw (d : Dialect) (sql : String) : (raw sql).render d = sql := by
  rw [← String.toList_inj, render, toList_render]
  simp [tokens, Token.render]

/-! ## Tokens and the parameters they carry -/

/-- Texts that are complete and hold no placeholders. -/
def Neutral (d : Dialect) (texts : List String) : Prop :=
  ∀ sql ∈ texts, Reads d sql.toList []

/-- Some tokens have the parameters of these positions. If the texts they take over are neutral,
what they are written with has the placeholders of these positions and no others. -/
structure Carries (d : Dialect) (texts : List String) (ts : List Token) (ns : List Nat) : Prop where
  params : positions ts = ns
  reads : Neutral d texts → Reads d (render d ts).toList (ns.map d.placeholder)

/-- A token that keeps its neighbours apart: a separator, and nothing of note after it. -/
structure Separates (d : Dialect) (t : Token) : Prop where
  noParam : t.position? = none
  text : ∃ c cs, (t.render d).toList = c :: cs ∧ Separator d c ∧ ∀ c' ∈ cs, Quiet d c'

theorem Reads.append_quiet {d : Dialect} {as bs : List Char} {met : List String}
    (ha : ∀ c ∈ as, Quiet d c) (hb : Reads d bs met) : Reads d (as ++ bs) met := by
  rw [Reads, Reading.read_append, read_quiet ha]
  exact hb

section

variable {texts : List String}

theorem carries_nil (d : Dialect) : Carries d texts [] [] := ⟨rfl, fun _ => reads_nil d⟩

theorem Carries.append {d : Dialect} {ts us : List Token} {t : Token} {ns ms : List Nat}
    (ht : Carries d texts ts ns) (hsep : Separates d t) (hu : Carries d texts us ms) :
    Carries d texts (ts ++ t :: us) (ns ++ ms) := by
  obtain ⟨rfl, ht⟩ := ht
  obtain ⟨rfl, hu⟩ := hu
  constructor
  · -- the separator has no parameter
    rw [positions_append, positions_cons hsep.noParam]
  · intro hn
    obtain ⟨c, cs, htext, hc, hcs⟩ := hsep.text
    have hts := ht hn
    have hus := hu hn
    rw [toList_render] at hts hus ⊢
    rw [List.map_append, List.flatMap_append, List.flatMap_cons, htext, List.cons_append]
    exact hts.append_separator hc (hus.append_quiet hcs)

/-- A separator may stand in front. -/
theorem Carries.cons {d : Dialect} {us : List Token} {t : Token} {ms : List Nat}
    (hsep : Separates d t) (hu : Carries d texts us ms) : Carries d texts (t :: us) ms :=
  (carries_nil d).append hsep hu

/-- A token on its own that is no parameter. -/
theorem carries_singleton {d : Dialect} {t : Token} (hp : t.position? = none)
    (h : Neutral d texts → Reads d (t.render d).toList []) : Carries d texts [t] [] := by
  refine ⟨positions_cons hp [], fun hn => ?_⟩
  rw [toList_render, List.flatMap_singleton]
  exact h hn

theorem carries_raw (d : Dialect) {sql : String} (h : sql ∈ texts) :
    Carries d texts [.raw sql] [] :=
  carries_singleton rfl fun hn => hn sql h

theorem carries_name (d : Dialect) (s : String) : Carries d texts [.name s] [] :=
  carries_singleton rfl fun _ => reads_quoteName d s

theorem carries_param (d : Dialect) (n : Nat) : Carries d texts [.param n] [n] := by
  refine ⟨rfl, fun _ => ?_⟩
  rw [toList_render, List.flatMap_singleton]
  exact reads_placeholder d n

/-! ## Separators and words -/

/-- Blanks and the characters that symbols are written with. -/
def separators : List Char :=
  [' ', '\n', ',', '.', '*', '(', ')', '=', '<', '>', '+', '-', '/']

theorem separator_of_mem (d : Dialect) {c : Char} (h : c ∈ separators) : Separator d c := by
  have hall : separators.all (fun c => Reading.fresh d c == .plain && !c.isAlphanum &&
      c != '\'' && c != d.nameDelimiters.2) = true := by
    cases d <;> decide
  have hc := List.all_eq_true.1 hall c h
  simp only [Bool.and_eq_true, beq_iff_eq, Bool.not_eq_true', bne_iff_ne] at hc
  obtain ⟨⟨⟨hquiet, hends⟩, htext⟩, hname⟩ := hc
  exact ⟨hquiet, hends, htext, hname⟩

/-- A token that is written with separators alone. -/
theorem separates_of_all {d : Dialect} {t : Token} (text : String) (hp : t.position? = none)
    (htext : t.render d = text) (hne : text.toList ≠ [])
    (hall : text.toList.all (separators.contains ·) = true) : Separates d t := by
  have hmem : ∀ c ∈ text.toList, Separator d c := fun c hc =>
    separator_of_mem d (List.contains_iff_mem.1 (List.all_eq_true.1 hall c hc))
  obtain ⟨c, cs, hcs⟩ := List.exists_cons_of_ne_nil hne
  rw [hcs] at hmem
  exact ⟨hp, c, cs, by rw [htext, hcs], hmem c List.mem_cons_self,
    fun c' hc' => (hmem c' (List.mem_cons_of_mem _ hc')).quiet⟩

theorem separates_space (d : Dialect) : Separates d .space :=
  separates_of_all " " rfl rfl (by decide) (by decide)

theorem separates_newline (d : Dialect) : Separates d .newline :=
  separates_of_all "\n" rfl rfl (by decide) (by decide)

theorem separates_sym (d : Dialect) (s : Symbol) : Separates d (.sym s) :=
  separates_of_all s.text rfl rfl (by cases s <;> decide) (by cases s <;> decide)

theorem separates_indent (d : Dialect) : Separates d (.indent 1) :=
  separates_of_all (String.ofList [' ', ' ']) rfl rfl (by decide) (by decide)

/-- Letters, digits, and a few signs that mean nothing to a reader of placeholders. -/
def isWordText (c : Char) : Bool :=
  c.isAlphanum || c == ' ' || c == '-' || c == '_' || c == '=' || c == '.'

theorem quiet_of_isWordText (d : Dialect) {c : Char} (h : isWordText c = true) : Quiet d c := by
  have hne : ∀ c' : Char, isWordText c' = false → c ≠ c' := by
    rintro c' h' rfl
    rw [h] at h'
    contradiction
  have htext : c ≠ '\'' := hne _ rfl
  have hopen : c ≠ d.nameDelimiters.1 := hne _ (by cases d <;> rfl)
  have hmarker : c ≠ marker d := hne _ (by cases d <;> rfl)
  rw [Quiet, Reading.fresh, if_neg htext, if_neg hopen, if_neg hmarker]

theorem carries_wordText {d : Dialect} {t : Token} (hp : t.position? = none)
    (h : ∀ c ∈ (t.render d).toList, isWordText c = true) : Carries d texts [t] [] :=
  carries_singleton hp fun _ => reads_quiet fun c hc => quiet_of_isWordText d (h c hc)

/-- SQL text that is the same in every statement. -/
theorem carries_fixed (d : Dialect) {sql : String} (h : sql.toList.all isWordText = true) :
    Carries d texts [.raw sql] [] :=
  carries_wordText rfl (List.all_eq_true.1 h)

theorem carries_word (d : Dialect) (w : Keyword) : Carries d texts [.word w] [] := by
  have htext : w.text.toList.all isWordText = true := by cases w <;> decide +kernel
  exact carries_wordText rfl (List.all_eq_true.1 htext)

theorem isWordText_of_isAlphanum {c : Char} (h : c.isAlphanum = true) : isWordText c = true := by
  simp only [isWordText, h, Bool.true_or]

theorem carries_int (d : Dialect) (n : Int64) : Carries d texts [.int n] [] := by
  refine carries_wordText rfl fun c hc => ?_
  rw [Token.render, Int.toString_eq_repr, Int.repr_eq_if] at hc
  -- digits, after a sign if it is negative
  split at hc
  · exact isWordText_of_isAlphanum (isAlphanum_of_mem_toString hc)
  · rw [String.toList_append, List.mem_append] at hc
    rcases hc with hc | hc
    · rw [(by decide : "-".toList = ['-']), List.mem_singleton] at hc
      rw [hc]
      rfl
    · exact isWordText_of_isAlphanum (isAlphanum_of_mem_toString hc)

theorem carries_string (d : Dialect) (s : String) : Carries d texts [.string s] [] := by
  refine carries_singleton rfl fun _ => ?_
  have hread : Reads d (Text.enclose '\'' '\'' s).toList [] := reads_enclose rfl (.inl rfl) s
  rw [Token.render, Dialect.quoteText]
  split
  · rw [String.toList_append]
    refine Reads.append_quiet (fun c hc => ?_) hread
    rw [(by decide : "N".toList = ['N']), List.mem_singleton] at hc
    rw [hc]
    exact quiet_of_isWordText d rfl
  · exact hread

theorem carries_table (d : Dialect) (schema : Option String) (s : String) :
    Carries d texts [.table schema s] [] := by
  refine carries_singleton rfl fun _ => ?_
  cases schema with
  | none => exact reads_quoteName d s
  | some schema =>
    rw [Token.render, String.toList_append, String.toList_append,
      (by decide : ".".toList = ['.']), List.append_assoc]
    exact (reads_quoteName d schema).append_separator (separator_of_mem d (by decide))
      (reads_quoteName d s)

end

end Rollup.Sql
