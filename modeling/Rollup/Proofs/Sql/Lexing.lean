/-
The words and signs of SQL text, read from left to right. A word, a number or a sign takes in all
characters that go on with it, and what stands in quotes is one operand. The words and signs of two
texts in a row are those of the one and then those of the other, unless the second begins with a
character that goes on with what the first ends in. A blank, a comma and a parenthesis never do.
-/
import Rollup.Proofs.Sql.Precedence
import Mathlib.Data.List.Infix

namespace Rollup.Sql.Precedence

/-! ## Words and signs -/

/-- The words that are no operands, in upper case. -/
def keywords : List (String × Lexeme) :=
  [("OR", .or), ("AND", .and), ("NOT", .not), ("IS", .is), ("BETWEEN", .between),
    ("ESCAPE", .escape), ("CASE", .opening .case), ("END", .closing .case)] ++
  ["IN", "LIKE", "ILIKE", "GLOB", "REGEXP", "RLIKE"].map (fun w => (w, .test w)) ++
  ["COLLATE", "OVER", "FILTER"].map (fun w => (w, .joint w)) ++
  ["AS", "BY", "DISTINCT", "ELSE", "FROM", "ORDER", "PARTITION", "SELECT", "THEN", "WHEN",
    "WHERE"].map (fun w => (w, .separator w)) ++
  [("INTERVAL", .lead "INTERVAL")]

/-- What a word is. -/
def wordLexeme (cs : List Char) : Lexeme :=
  (keywords.lookup (String.ofList (cs.map Char.toUpper))).getD (.operand (String.ofList cs))

/-- The signs, and what begins a comment, which is no part of an expression. -/
def signs : List (String × Option Lexeme) :=
  ["=", "==", "<>", "!=", "<", "<=", ">", ">=", "<=>"].map (fun s => (s, some (.test s))) ++
  ["+", "-", "||"].map (fun s => (s, some (.sum s))) ++
  ["*", "/", "%"].map (fun s => (s, some (.product s))) ++
  [".", "::"].map (fun s => (s, some (.joint s))) ++
  [("--", none), ("/*", none)]

/-- The quotes around texts and names. -/
inductive Quotes where
  | single
  | double
  | back
  | square
  deriving DecidableEq, Repr

/-- The character that ends the quotes. -/
def Quotes.closing : Quotes → Char
  | single => '\''
  | double => '"'
  | back => '\x60'
  | square => ']'

/-- The quotes that a character opens. -/
def Quotes.opened? : Dialect → Char → Option Quotes
  | _, '\'' => some single
  | _, '"' => some double
  | .mysql, '\x60' => some back
  | .tsql, '[' => some square
  | _, _ => none

/-- The characters of words, those of names and placeholders among them. -/
def isWordChar (c : Char) : Bool :=
  c.isAlphanum || c == '_' || c == '$' || c == '@' || c == '?' || 0x80 ≤ c.toNat

/-- The characters a number starts with. -/
def isDigitOrPoint (c : Char) : Bool :=
  c.isDigit || c == '.'

/-- Whether a word is a number up to the sign of its exponent. -/
def awaitsExponent (cs : List Char) : Bool :=
  cs.head?.any isDigitOrPoint && cs.getLast?.any (fun c => c == 'e' || c == 'E') &&
    cs.dropLast.all isDigitOrPoint

/-- Whether a character goes on with a number. -/
def continuesNumber (cs : List Char) (c : Char) : Bool :=
  (c == '.' && cs.head?.any isDigitOrPoint) || ((c == '+' || c == '-') && awaitsExponent cs)

/-- The blanks and the signs that stand by themselves. -/
def alone? (c : Char) : Option (List Lexeme) :=
  if c.isWhitespace then some []
  else if c = '(' then some [.opening .round]
  else if c = ')' then some [.closing .round]
  else if c = ',' then some [.separator ","]
  else none

/-! ## The reader -/

/-- What is being read. -/
inductive Pending where
  /-- Nothing but what stands by itself. -/
  | lone (xs : List Lexeme)
  | word (cs : List Char)
  | quoted (q : Quotes) (cs : List Char)
  /-- After quotes that are closed, unless the closing one comes again. -/
  | unquoted (q : Quotes) (cs : List Char)
  | sign (cs : List Char)
  deriving DecidableEq, Repr

namespace Pending

/-- Reading on, when the character goes on with what is being read. -/
def extend? : Pending → Char → Option Pending
  | lone _, _ => none
  | word cs, c =>
    if isWordChar c || continuesNumber cs c then some (word (cs ++ [c]))
    else if c = '\'' ∧ cs = ['N'] then some (quoted .single (cs ++ [c]))
    else none
  | quoted q cs, c =>
    some (if c = q.closing then unquoted q (cs ++ [c]) else quoted q (cs ++ [c]))
  | unquoted q cs, c => if c = q.closing then some (quoted q (cs ++ [c])) else none
  | sign cs, c =>
    if signs.any (fun s => (cs ++ [c]).isPrefixOf s.1.toList) then some (sign (cs ++ [c]))
    else if c.isDigit ∧ cs = ['.'] then some (word (cs ++ [c]))
    else none

/-- What has been read, when it is complete. -/
def finish? : Pending → Option (List Lexeme)
  | lone xs => some xs
  | word cs => some [wordLexeme cs]
  | quoted _ _ => none
  | unquoted _ cs => some [.operand (String.ofList cs)]
  | sign cs => (signs.lookup (String.ofList cs)).join.map ([·])

/-- What a character begins. -/
def begun (d : Dialect) (c : Char) : Pending :=
  match alone? c with
  | some xs => lone xs
  | none =>
    match Quotes.opened? d c with
    | some q => quoted q [c]
    | none => if isWordChar c then word [c] else sign [c]

/-- What is being read after one more character. -/
def next (d : Dialect) (p : Pending) (c : Char) : Pending :=
  (p.extend? c).getD (begun d c)

/-- What is being read after a text. -/
def after (d : Dialect) (p : Pending) (cs : List Char) : Pending :=
  cs.foldl (next d) p

/-- The words and signs of a text. -/
def lex? (d : Dialect) : Pending → List Char → Option (List Lexeme)
  | p, [] => p.finish?
  | p, c :: cs =>
    match p.extend? c with
    | some p' => lex? d p' cs
    | none => p.finish?.bind fun xs => (lex? d (begun d c) cs).map (xs ++ ·)

end Pending

/-- A text has these words and signs. -/
def Lexes (d : Dialect) (cs : List Char) (xs : List Lexeme) : Prop :=
  Pending.lex? d (.lone []) cs = some xs

instance (d : Dialect) (cs : List Char) (xs : List Lexeme) : Decidable (Lexes d cs xs) :=
  inferInstanceAs (Decidable (_ = _))

/-- The second text does not go on with what the first one ends in. -/
def Apart (d : Dialect) (as : List Char) : List Char → Prop
  | [] => True
  | c :: _ => (Pending.after d (.lone []) as).extend? c = none

instance (d : Dialect) (as : List Char) : (bs : List Char) → Decidable (Apart d as bs)
  | [] => .isTrue trivial
  | _ :: _ => inferInstanceAs (Decidable (_ = _))

/-- The expression that a text is, by the standard precedence of operators. -/
def read? (d : Dialect) (sql : String) : Option Tree :=
  (Pending.lex? d (.lone []) sql.toList).bind parse?

theorem read?_eq_some {d : Dialect} {sql : String} {t : Tree} :
    read? d sql = some t ↔ Lexes d sql.toList t.lexemes ∧ t.Complete := by
  constructor
  · intro h
    obtain ⟨xs, hxs, h⟩ := Option.bind_eq_some_iff.1 h
    obtain ⟨rfl, ht⟩ := parse?_eq_some.1 h
    exact ⟨hxs, ht⟩
  · rintro ⟨hlexes, ht⟩
    rw [read?, hlexes]
    exact parse?_eq_some.2 ⟨rfl, ht⟩

example : read? .sqlite "NOT a + 1.5 > 3 AND b" =
    some (.binary (.unary .not (.binary (.binary (.leaf "a") (.sum "+") (.leaf "1.5"))
      (.test false ">") (.leaf "3"))) .and (.leaf "b")) := by
  decide +kernel

/-! ## Texts in a row -/

namespace Pending

section

variable {d : Dialect} {p p' : Pending} {c : Char} {cs : List Char}

theorem lex?_of_extend? (h : p.extend? c = some p') : lex? d p (c :: cs) = lex? d p' cs := by
  rw [lex?, h]

theorem lex?_of_none (h : p.extend? c = none) :
    lex? d p (c :: cs) = p.finish?.bind fun xs => (lex? d (begun d c) cs).map (xs ++ ·) := by
  rw [lex?, h]

theorem after_of_extend? (h : p.extend? c = some p') : after d p (c :: cs) = after d p' cs := by
  rw [after, List.foldl_cons, next, h]
  rfl

theorem after_of_none (h : p.extend? c = none) : after d p (c :: cs) = after d (begun d c) cs := by
  rw [after, List.foldl_cons, next, h]
  rfl

end

theorem lex?_append {d : Dialect} {p : Pending} {as bs : List Char}
    (h : ∀ c cs, bs = c :: cs → (after d p as).extend? c = none) :
    lex? d p (as ++ bs) =
      (lex? d p as).bind fun xs => (lex? d (lone []) bs).map (xs ++ ·) := by
  induction as generalizing p with
  | nil =>
    cases bs with
    | nil =>
      rw [List.append_nil, lex?, lex?]
      cases p.finish? <;> simp [finish?]
    | cons c cs =>
      have hlone : lex? d (lone []) (c :: cs) = lex? d (begun d c) cs := by
        rw [lex?_of_none rfl, finish?, Option.bind_some]
        simp
      have hc : p.extend? c = none := h c cs rfl
      rw [List.nil_append, lex?_of_none hc, hlone, lex?]
  | cons a as ih =>
    rw [List.cons_append]
    cases ha : p.extend? a with
    | some p' =>
      rw [lex?_of_extend? ha, lex?_of_extend? ha]
      exact ih fun c cs hbs => after_of_extend? ha ▸ h c cs hbs
    | none =>
      have hrest := @ih (begun d a) fun c cs hbs => after_of_none ha ▸ h c cs hbs
      rw [lex?_of_none ha, lex?_of_none ha, hrest]
      cases p.finish? with
      | none => rfl
      | some xs =>
        cases lex? d (begun d a) as with
        | none => rfl
        | some ys =>
          cases lex? d (lone []) bs with
          | none => rfl
          | some zs => simp

end Pending

theorem Lexes.append {d : Dialect} {as bs : List Char} {xs ys : List Lexeme} (ha : Lexes d as xs)
    (hb : Lexes d bs ys) (h : Apart d as bs) : Lexes d (as ++ bs) (xs ++ ys) := by
  rw [Lexes, Pending.lex?_append, ha, hb]
  · rfl
  · rintro c cs rfl
    exact h

/-! ## Characters that stand by themselves -/

/-- The blanks and signs that go on with nothing. -/
def breaks : List Char :=
  [' ', '\t', '\r', '\n', '(', ')', ',']

theorem mem_breaks_of_alone? {c : Char} {xs : List Lexeme} (h : alone? c = some xs) :
    c ∈ breaks := by
  unfold alone? at h
  split at h
  · rename_i hc
    simp only [Char.isWhitespace, Bool.or_eq_true, decide_eq_true_eq] at hc
    simp only [breaks, List.mem_cons]
    tauto
  · simp only [breaks, List.mem_cons]
    split at h
    · tauto
    · split at h
      · tauto
      · split at h
        · tauto
        · cases h

/-- What is known of the characters that stand by themselves. -/
structure Ends (c : Char) : Prop where
  word : isWordChar c = false
  number : ∀ cs, continuesNumber cs c = false
  quote : c ≠ '\''
  digit : c.isDigit = false
  closing : ∀ q : Quotes, c ≠ q.closing
  sign : ∀ s ∈ signs, c ∉ s.1.toList

theorem ends_of_mem_breaks {c : Char} (h : c ∈ breaks) : Ends c := by
  have hall : breaks.all (fun c => !isWordChar c && c != '.' && c != '+' && c != '-' &&
      c != '\'' && !c.isDigit && signs.all (fun s => !s.1.toList.contains c) &&
      [Quotes.single, .double, .back, .square].all (c != ·.closing)) = true := by
    decide +kernel
  have hc := List.all_eq_true.1 hall c h
  simp only [Bool.and_eq_true, Bool.not_eq_true', bne_iff_ne] at hc
  obtain ⟨⟨⟨⟨⟨⟨⟨hword, hpoint⟩, hplus⟩, hminus⟩, hquote⟩, hdigit⟩, hsigns⟩, hclosing⟩ := hc
  refine ⟨hword, fun cs => ?_, hquote, hdigit, fun q => ?_, fun s hs hmem => ?_⟩
  · simp [continuesNumber, hpoint, hplus, hminus]
  · have hq : q ∈ [Quotes.single, .double, .back, .square] := by cases q <;> decide
    exact bne_iff_ne.1 (List.all_eq_true.1 hclosing q hq)
  · have hsign := List.all_eq_true.1 hsigns s hs
    rw [List.contains_iff_mem.2 hmem] at hsign
    cases hsign

/-- What stands by itself goes on with nothing that is complete. -/
theorem Pending.extend?_eq_none {p : Pending} (hp : p.finish? ≠ none) {c : Char} {xs : List Lexeme}
    (hc : alone? c = some xs) : p.extend? c = none := by
  have hends := ends_of_mem_breaks (mem_breaks_of_alone? hc)
  cases p with
  | lone _ => rfl
  | word cs =>
    rw [extend?, hends.word, hends.number cs, Bool.or_self, if_neg Bool.false_ne_true,
      if_neg fun h => hends.quote h.1]
  | quoted q cs => exact (hp rfl).elim
  | unquoted q cs => exact if_neg (hends.closing q)
  | sign cs =>
    have hsign : signs.any (fun s => (cs ++ [c]).isPrefixOf s.1.toList) = false := by
      refine List.any_eq_false.2 fun s hs hmatch => hends.sign s hs ?_
      exact (List.isPrefixOf_iff_prefix.1 hmatch).subset (by simp)
    rw [extend?, hsign, if_neg Bool.false_ne_true, hends.digit,
      if_neg fun h => Bool.false_ne_true h.1]

theorem Pending.finish?_after {d : Dialect} {p : Pending} {cs : List Char} {xs : List Lexeme}
    (h : lex? d p cs = some xs) : (after d p cs).finish? ≠ none := by
  induction cs generalizing p xs with
  | nil =>
    have hp : p.finish? = some xs := h
    exact fun hnone => by cases hp.symm.trans hnone
  | cons c cs ih =>
    cases hc : p.extend? c with
    | some p' =>
      rw [lex?_of_extend? hc] at h
      rw [after_of_extend? hc]
      exact ih h
    | none =>
      rw [lex?_of_none hc] at h
      rw [after_of_none hc]
      obtain ⟨ys, -, h⟩ := Option.bind_eq_some_iff.1 h
      obtain ⟨zs, h, -⟩ := Option.map_eq_some_iff.1 h
      exact ih h

theorem Lexes.apart {d : Dialect} {as : List Char} {xs : List Lexeme} (h : Lexes d as xs) {c : Char}
    {ys : List Lexeme} (hc : alone? c = some ys) (bs : List Char) : Apart d as (c :: bs) :=
  Pending.extend?_eq_none (Pending.finish?_after h) hc

/-- What stands by itself leaves nothing to go on with. -/
theorem Lexes.apart_after {d : Dialect} {as : List Char} {xs : List Lexeme} (h : Lexes d as xs)
    {c : Char} {ys : List Lexeme} (hc : alone? c = some ys) (bs : List Char) :
    Apart d (as ++ [c]) bs := by
  cases bs with
  | nil => trivial
  | cons b bs =>
    have hnone := h.apart hc []
    rw [Apart, Pending.after] at *
    rw [List.foldl_append, List.foldl_cons, List.foldl_nil, Pending.next, hnone, Option.getD_none,
      Pending.begun, hc]
    rfl

/-- What stands by itself before a text. -/
theorem Lexes.cons {d : Dialect} {bs : List Char} {ys : List Lexeme} (h : Lexes d bs ys) {c : Char}
    {zs : List Lexeme} (hc : alone? c = some zs) : Lexes d (c :: bs) (zs ++ ys) := by
  have hlone : Lexes d [c] zs := by
    rw [Lexes, Pending.lex?_of_none rfl, Pending.begun, hc]
    simp [Pending.lex?, Pending.finish?]
  have hapart : Apart d [c] bs := @Lexes.apart_after d [] [] rfl c zs hc bs
  exact hlone.append h hapart

/-- Two texts with something between them that stands by itself. -/
theorem Lexes.between {d : Dialect} {as bs : List Char} {xs ys zs : List Lexeme}
    (ha : Lexes d as xs) {c : Char} (hc : alone? c = some zs) (hb : Lexes d bs ys) :
    Lexes d (as ++ c :: bs) (xs ++ (zs ++ ys)) :=
  ha.append (hb.cons hc) (ha.apart hc bs)

/-! ## Words -/

theorem Pending.lex?_word {d : Dialect} {cs : List Char} (h : ∀ c ∈ cs, isWordChar c = true)
    (start : List Char) :
    lex? d (word start) cs = some [wordLexeme (start ++ cs)] := by
  induction cs generalizing start with
  | nil => rw [List.append_nil, lex?, finish?]
  | cons c cs ih =>
    obtain ⟨hc, hcs⟩ := List.forall_mem_cons.1 h
    have hextend : (word start).extend? c = some (word (start ++ [c])) := by
      rw [extend?, hc, Bool.true_or, if_pos rfl]
    rw [lex?_of_extend? hextend, ih hcs, List.append_assoc, List.singleton_append]

/-! ## Text has no holes -/

/-- Whether it is a place left open. -/
def Lexeme.isHole : Lexeme → Bool
  | hole _ => true
  | _ => false

theorem mem_of_lookup {α β : Type} [BEq α] [LawfulBEq α] {k : α} {v : β} {es : List (α × β)}
    (h : es.lookup k = some v) : (k, v) ∈ es := by
  obtain ⟨before, rest, hsplit, -⟩ := List.lookup_eq_some_iff.1 h
  exact hsplit ▸ List.mem_append_right before List.mem_cons_self

/-- What is read from characters has no holes. -/
theorem Pending.isHole_of_finish? {p : Pending}
    (hp : ∀ xs, p = lone xs → ∀ x ∈ xs, x.isHole = false) {xs : List Lexeme}
    (h : p.finish? = some xs) : ∀ x ∈ xs, x.isHole = false := by
  cases p with
  | lone ys =>
    cases h
    exact hp xs rfl
  | word cs =>
    cases h
    have hkeywords : ∀ e ∈ keywords, e.2.isHole = false := by decide
    refine List.forall_mem_singleton.2 ?_
    rw [wordLexeme]
    cases hlookup : keywords.lookup (String.ofList (cs.map Char.toUpper)) with
    | none => rfl
    | some x => exact hkeywords _ (mem_of_lookup hlookup)
  | quoted _ _ => cases h
  | unquoted _ cs =>
    cases h
    exact List.forall_mem_singleton.2 rfl
  | sign cs =>
    have hsigns : ∀ e ∈ signs, ∀ x ∈ e.2, x.isHole = false := by decide
    obtain ⟨x, hjoin, rfl⟩ := Option.map_eq_some_iff.1 h
    exact List.forall_mem_singleton.2
      (hsigns _ (mem_of_lookup (Option.join_eq_some_iff.1 hjoin)) x rfl)

theorem isHole_of_alone? {c : Char} {xs : List Lexeme} (h : alone? c = some xs) :
    ∀ x ∈ xs, x.isHole = false := by
  unfold alone? at h
  split at h
  · cases h
    exact fun x hx => (List.not_mem_nil hx).elim
  · split at h
    · cases h
      exact List.forall_mem_singleton.2 rfl
    · split at h
      · cases h
        exact List.forall_mem_singleton.2 rfl
      · obtain ⟨-, heq⟩ := Option.ite_none_right_eq_some.1 h
        cases heq
        exact List.forall_mem_singleton.2 rfl

theorem Pending.extend?_ne_lone {p : Pending} {c : Char} {xs : List Lexeme} :
    p.extend? c ≠ some (lone xs) := by
  cases p <;> unfold extend? <;> split <;> (try split) <;> simp

theorem Pending.isHole_of_lex? {d : Dialect} {p : Pending} {cs : List Char} {xs : List Lexeme}
    (hp : ∀ xs, p = lone xs → ∀ x ∈ xs, x.isHole = false) (h : lex? d p cs = some xs) :
    ∀ x ∈ xs, x.isHole = false := by
  induction cs generalizing p xs with
  | nil => exact isHole_of_finish? hp h
  | cons c cs ih =>
    cases hc : p.extend? c with
    | some p' =>
      rw [lex?_of_extend? hc] at h
      refine ih ?_ h
      rintro ys rfl
      exact (extend?_ne_lone hc).elim
    | none =>
      rw [lex?_of_none hc] at h
      obtain ⟨ys, hys, h⟩ := Option.bind_eq_some_iff.1 h
      obtain ⟨zs, hzs, rfl⟩ := Option.map_eq_some_iff.1 h
      have hbegun : ∀ xs, begun d c = lone xs → ∀ x ∈ xs, x.isHole = false := by
        intro xs hxs
        unfold begun at hxs
        split at hxs
        · rename_i halone
          cases hxs
          exact isHole_of_alone? halone
        · split at hxs
          · cases hxs
          · split at hxs <;> cases hxs
      intro x hx
      rcases List.mem_append.1 hx with hx | hx
      · exact isHole_of_finish? hp hys x hx
      · exact ih hbegun hzs x hx

theorem Lexes.isHole {d : Dialect} {cs : List Char} {xs : List Lexeme} (h : Lexes d cs xs) :
    ∀ x ∈ xs, x.isHole = false :=
  Pending.isHole_of_lex? (fun _ hlone _ hx => by cases hlone; cases hx) h

end Rollup.Sql.Precedence
