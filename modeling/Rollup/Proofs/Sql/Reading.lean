/-
The placeholders met when SQL text is read from left to right. What stands in quotes is passed over,
and a quote written twice does not end it. A placeholder is its marker and the letters and digits
after it.

Texts are read one after the other, so the laws are about pieces: a piece that is read from plain
text to an end that is not inside quotes can be followed by a separator and then by the next piece.
-/
import Rollup.Sql.Select

namespace Rollup.Sql

/-- Where a reader of SQL text stands. -/
inductive Reading where
  | plain
  /-- Inside quotes. -/
  | quoted (closing : Char)
  /-- After a character that ends quotes unless it comes again. -/
  | closed (closing : Char)
  /-- Inside a placeholder of which `text` has been read. -/
  | marked (text : List Char)
  deriving DecidableEq, Repr

/-- The character that every placeholder of a dialect starts with. -/
def marker : Dialect → Char
  | .postgres => '$'
  | .tsql => '@'
  | _ => '?'

namespace Reading

/-- Where a character leads that no quotes and no placeholder take up. -/
def fresh (d : Dialect) (c : Char) : Reading :=
  if c = '\'' then quoted '\''
  else if c = d.nameDelimiters.1 then quoted d.nameDelimiters.2
  else if c = marker d then marked [c]
  else plain

/-- Where a character leads. -/
def next (d : Dialect) : Reading → Char → Reading
  | plain, c => fresh d c
  | quoted q, c => if c = q then closed q else quoted q
  | closed q, c => if c = q then quoted q else fresh d c
  | marked text, c => if c.isAlphanum then marked (text ++ [c]) else fresh d c

/-- The placeholder that has been read. -/
def pending : Reading → List String
  | marked text => [String.ofList text]
  | _ => []

/-- The placeholder that a character ends. -/
def ended : Reading → Char → List String
  | marked text, c => if c.isAlphanum then [] else [String.ofList text]
  | _, _ => []

/-- Reads a text: where the reader stands after it, and the placeholders that ended in it. -/
def read (d : Dialect) : Reading → List Char → Reading × List String
  | r, [] => (r, [])
  | r, c :: cs => ((read d (r.next d c) cs).1, r.ended c ++ (read d (r.next d c) cs).2)

theorem read_append (d : Dialect) (r : Reading) (as bs : List Char) :
    read d r (as ++ bs) =
      ((read d (read d r as).1 bs).1, (read d r as).2 ++ (read d (read d r as).1 bs).2) := by
  induction as generalizing r with
  | nil => rfl
  | cons a as ih => rw [List.cons_append, read, ih, read, List.append_assoc]

end Reading

/-- The placeholders of a text, in the order they are met. -/
def placeholders (d : Dialect) (sql : String) : List String :=
  (Reading.read d .plain sql.toList).2 ++ (Reading.read d .plain sql.toList).1.pending

/-! ## Pieces of text -/

/-- The reader is not inside quotes, and outside quotes of no other kind than names and texts. -/
def Reading.Settled (d : Dialect) : Reading → Prop
  | .plain | .marked _ => True
  | .quoted _ => False
  | .closed q => q = '\'' ∨ q = d.nameDelimiters.2

instance (d : Dialect) : (r : Reading) → Decidable (r.Settled d)
  | .plain | .marked _ => .isTrue trivial
  | .quoted _ => .isFalse id
  | .closed q => inferInstanceAs (Decidable (q = '\'' ∨ q = d.nameDelimiters.2))

/-- A piece of text has these placeholders, and what it opens it closes. -/
def Reads (d : Dialect) (text : List Char) (met : List String) : Prop :=
  (Reading.read d .plain text).1.Settled d ∧
    (Reading.read d .plain text).2 ++ (Reading.read d .plain text).1.pending = met

instance (d : Dialect) (text : List Char) (met : List String) : Decidable (Reads d text met) :=
  inferInstanceAs (Decidable (_ ∧ _))

theorem Reads.placeholders_eq {d : Dialect} {sql : String} {met : List String}
    (h : Reads d sql.toList met) : placeholders d sql = met :=
  h.2

theorem reads_nil (d : Dialect) : Reads d [] [] := ⟨trivial, rfl⟩

/-- A character that neither opens quotes nor starts a placeholder. -/
def Quiet (d : Dialect) (c : Char) : Prop :=
  Reading.fresh d c = .plain

/-- A quiet character that also ends a placeholder and cannot be taken for a second quote. -/
structure Separator (d : Dialect) (c : Char) : Prop where
  quiet : Quiet d c
  ends : c.isAlphanum = false
  noQuote : c ≠ '\'' ∧ c ≠ d.nameDelimiters.2

theorem read_quiet {d : Dialect} {cs : List Char} (h : ∀ c ∈ cs, Quiet d c) :
    Reading.read d .plain cs = (.plain, []) := by
  induction cs with
  | nil => rfl
  | cons c cs ih =>
    have hc : Reading.next d .plain c = .plain := h c List.mem_cons_self
    rw [Reading.read, hc, ih fun c' hc' => h c' (List.mem_cons_of_mem _ hc')]
    rfl

theorem reads_quiet {d : Dialect} {cs : List Char} (h : ∀ c ∈ cs, Quiet d c) : Reads d cs [] := by
  rw [Reads, read_quiet h]
  exact ⟨trivial, rfl⟩

theorem next_separator {d : Dialect} {r : Reading} {c : Char} (hr : r.Settled d)
    (hc : Separator d c) : r.next d c = .plain ∧ r.ended c = r.pending := by
  cases r with
  | plain => exact ⟨hc.quiet, rfl⟩
  | quoted q => exact hr.elim
  | closed q =>
    have hq : c ≠ q := by
      rcases hr with rfl | rfl
      · exact hc.noQuote.1
      · exact hc.noQuote.2
    exact ⟨by rw [Reading.next, if_neg hq]; exact hc.quiet, rfl⟩
  | marked text =>
    constructor
    · rw [Reading.next, hc.ends]; exact hc.quiet
    · rw [Reading.ended, hc.ends]; rfl

/-- Two pieces with a separator between them are read one after the other. -/
theorem Reads.append_separator {d : Dialect} {as bs : List Char} {c : Char} {met more : List String}
    (ha : Reads d as met) (hc : Separator d c) (hb : Reads d bs more) :
    Reads d (as ++ c :: bs) (met ++ more) := by
  obtain ⟨ha, rfl⟩ := ha
  obtain ⟨hb, rfl⟩ := hb
  obtain ⟨hnext, hended⟩ := next_separator ha hc
  rw [Reads, Reading.read_append, Reading.read, hnext, hended]
  exact ⟨hb, by simp only [List.append_assoc]⟩

/-! ## Quotes and placeholders -/

theorem read_doubled (d : Dialect) (q : Char) (cs : List Char) :
    Reading.read d (.quoted q) (Text.doubled q cs) = (.quoted q, []) := by
  induction cs with
  | nil => rfl
  | cons c cs ih =>
    rw [Text.doubled]
    -- a quote in the text comes twice, so the reader is back inside after the two
    split
    · rename_i hc
      rw [beq_iff_eq] at hc
      subst hc
      simp [Reading.read, Reading.next, Reading.ended, ih]
    · rename_i hc
      rw [beq_iff_eq] at hc
      simp [Reading.read, Reading.next, Reading.ended, hc, ih]

/-- What stands in quotes holds no placeholder. -/
theorem reads_enclose {d : Dialect} {opening closing : Char}
    (hopen : Reading.fresh d opening = .quoted closing)
    (hclose : closing = '\'' ∨ closing = d.nameDelimiters.2) (s : String) :
    Reads d (Text.enclose opening closing s).toList [] := by
  have hread : Reading.read d .plain (Text.enclose opening closing s).toList =
      (.closed closing, []) := by
    rw [Text.enclose, String.toList_ofList, List.cons_append, Reading.read, Reading.next, hopen,
      Reading.read_append, read_doubled]
    simp [Reading.read, Reading.next, Reading.ended]
  rw [Reads, hread]
  exact ⟨hclose, rfl⟩

theorem reads_quoteName (d : Dialect) (s : String) : Reads d (d.quoteName s).toList [] := by
  refine reads_enclose ?_ (.inr rfl) s
  cases d <;> rfl

theorem read_marked {d : Dialect} {text cs : List Char} (h : ∀ c ∈ cs, c.isAlphanum = true) :
    Reading.read d (.marked text) cs = (.marked (text ++ cs), []) := by
  induction cs generalizing text with
  | nil => simp [Reading.read]
  | cons c cs ih =>
    have hc : c.isAlphanum = true := h c List.mem_cons_self
    rw [Reading.read, Reading.next, if_pos hc, ih fun c' hc' => h c' (List.mem_cons_of_mem _ hc')]
    simp [Reading.ended, hc]

/-- A marker with letters and digits is a placeholder. -/
theorem reads_marked (d : Dialect) {cs : List Char} (h : ∀ c ∈ cs, c.isAlphanum = true) :
    Reads d (marker d :: cs) [String.ofList (marker d :: cs)] := by
  have hstart : Reading.next d .plain (marker d) = .marked [marker d] := by cases d <;> rfl
  have hread : Reading.read d .plain (marker d :: cs) = (.marked (marker d :: cs), []) := by
    rw [Reading.read, hstart, read_marked h]
    rfl
  rw [Reads, hread]
  exact ⟨trivial, rfl⟩

theorem isDigit_of_mem_toString {n : Nat} {c : Char} (h : c ∈ (toString n).toList) :
    c.isDigit = true := by
  rw [Nat.toString_eq_repr, Nat.toList_repr] at h
  exact Nat.isDigit_of_mem_toDigits (by decide) (by decide) h

theorem isAlphanum_of_mem_toString {n : Nat} {c : Char} (h : c ∈ (toString n).toList) :
    c.isAlphanum = true := by
  rw [Char.isAlphanum, isDigit_of_mem_toString h, Bool.or_true]

theorem toList_placeholder (d : Dialect) (n : Nat) :
    ∃ cs, (∀ c ∈ cs, c.isAlphanum = true) ∧ (d.placeholder n).toList = marker d :: cs := by
  cases d with
  | postgres =>
    exact ⟨(toString n).toList, fun c => isAlphanum_of_mem_toString, String.toList_append⟩
  | tsql =>
    refine ⟨'p' :: (toString n).toList, fun c hc => ?_, String.toList_append⟩
    rcases List.mem_cons.1 hc with rfl | hc
    · rfl
    · exact isAlphanum_of_mem_toString hc
  | duckdb | mysql | snowflake | sqlite =>
    exact ⟨[], by simp, (by decide : "?".toList = ['?'])⟩

theorem reads_placeholder (d : Dialect) (n : Nat) :
    Reads d (d.placeholder n).toList [d.placeholder n] := by
  obtain ⟨cs, hcs, h⟩ := toList_placeholder d n
  have hread := reads_marked d hcs
  rwa [← h, String.ofList_toList] at hread

end Rollup.Sql
