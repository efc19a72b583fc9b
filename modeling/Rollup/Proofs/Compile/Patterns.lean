/-
Texts that are looked for in others. The operand of such a predicate becomes a pattern of LIKE, with
a mark before every character that has a meaning there, and with the wildcard at the ends that are
left open. Read as LIKE reads it, the pattern is the operand character by character between these
wildcards, so a text matches exactly if the operand stands in it at the place that is asked for.
-/
import Mathlib.Data.List.Infix
import Rollup.Compile.Condition

namespace Rollup

/-- Where one text stands in another. -/
def Anchor.Finds : Anchor → String → String → Prop
  | start, s, text => s.toList <+: text.toList
  | stop, s, text => s.toList <:+ text.toList
  | anywhere, s, text => s.toList <:+: text.toList

instance (anchor : Anchor) (s text : String) : Decidable (anchor.Finds s text) :=
  match anchor with
  | .start => inferInstanceAs (Decidable (s.toList <+: text.toList))
  | .stop => inferInstanceAs (Decidable (s.toList <:+ text.toList))
  | .anywhere => inferInstanceAs (Decidable (s.toList <:+: text.toList))

namespace Sql

/-! ## LIKE -/

/-- One sign of a pattern. -/
inductive PatternSign where
  /-- Any characters, be there some or none. -/
  | run
  /-- Any one character. -/
  | one
  /-- This character. -/
  | char (c : Char)
  deriving DecidableEq, Repr

/-- What a character of a pattern is without an escape before it. -/
def PatternSign.of (c : Char) : PatternSign :=
  if c = '%' then run else if c = '_' then one else char c

/-- The signs of a pattern; `escaped` tells whether the character before was the escape. A character
behind the escape stands for itself, and a pattern that ends in the escape is none. -/
def patternSigns? (escape : Char) (escaped : Bool) : List Char → Option (List PatternSign)
  | [] => if escaped then none else some []
  | c :: pattern =>
    if escaped then (patternSigns? escape false pattern).map (.char c :: ·)
    else if c = escape then patternSigns? escape true pattern
    else (patternSigns? escape false pattern).map (.of c :: ·)

/-- Whether a text as a whole matches some signs. A run is tried at every length. -/
def matchesSigns : List PatternSign → List Char → Bool
  | [], text => text.isEmpty
  | .run :: signs, text => text.tails.any (matchesSigns signs)
  | .one :: signs, text => text.tail?.any (matchesSigns signs)
  | .char c :: signs, text => text.head? == some c && matchesSigns signs text.tail

/-- Whether a text is LIKE a pattern, where that is one. -/
def like? (escape : Char) (pattern text : String) : Option Bool :=
  (patternSigns? escape false pattern.toList).map (matchesSigns · text.toList)

section

variable {escape : Char} {signs : List PatternSign} {s text : List Char}

theorem matchesSigns_nil : matchesSigns [] text = true ↔ text = [] :=
  List.isEmpty_iff

theorem matchesSigns_run : matchesSigns (.run :: signs) text = true ↔
    ∃ rest, rest <:+ text ∧ matchesSigns signs rest = true := by
  rw [matchesSigns, List.any_eq_true]
  exact exists_congr fun rest => and_congr_left fun _ => List.mem_tails ..

theorem matchesSigns_open (text : List Char) : matchesSigns [.run] text = true :=
  matchesSigns_run.2 ⟨[], List.nil_suffix, rfl⟩

/-- Characters match themselves, one after the other. -/
theorem matchesSigns_chars : matchesSigns (s.map .char ++ signs) text = true ↔
    ∃ rest, text = s ++ rest ∧ matchesSigns signs rest = true := by
  induction s generalizing text with
  | nil => simp
  | cons c s ih =>
    rw [List.map_cons, List.cons_append, matchesSigns, Bool.and_eq_true, beq_iff_eq, ih]
    constructor
    · rintro ⟨hhead, rest, htail, hrest⟩
      refine ⟨rest, ?_, hrest⟩
      rw [List.cons_append, ← htail]
      exact List.eq_cons_of_mem_head? hhead
    · rintro ⟨rest, rfl, hrest⟩
      exact ⟨rfl, rest, rfl, hrest⟩

end

/-- The signs that a text stands for at a place: its characters, and runs where more may stand. -/
def signsFor (anchor : Anchor) (s : List Char) : List PatternSign :=
  match anchor with
  | .start => s.map .char ++ [.run]
  | .stop => .run :: s.map .char
  | .anywhere => .run :: (s.map .char ++ [.run])

/-- Such signs match the texts that have the given one at the place. -/
theorem matchesSigns_signsFor (anchor : Anchor) (s text : String) :
    matchesSigns (signsFor anchor s.toList) text.toList = true ↔ anchor.Finds s text := by
  have hstart : ∀ cs, matchesSigns (s.toList.map .char ++ [.run]) cs = true ↔ s.toList <+: cs := by
    intro cs
    rw [matchesSigns_chars]
    constructor
    · rintro ⟨rest, rfl, -⟩
      exact List.prefix_append _ _
    · rintro ⟨rest, rfl⟩
      exact ⟨rest, rfl, matchesSigns_open rest⟩
  cases anchor with
  | start => exact hstart _
  | stop =>
    have hwhole : ∀ cs, matchesSigns (s.toList.map .char) cs = true ↔ cs = s.toList := by
      intro cs
      have h : matchesSigns (s.toList.map .char ++ []) cs = true ↔ _ := matchesSigns_chars
      simpa [matchesSigns_nil] using h
    simp only [signsFor, matchesSigns_run, hwhole, exists_eq_right]
    rfl
  | anywhere =>
    simp only [signsFor, matchesSigns_run, hstart, Anchor.Finds, List.infix_iff_prefix_suffix,
      and_comm]

end Sql

namespace Condition

open Sql

/-! ## Patterns of texts -/

/-- Where the pattern goes on with a text that is escaped, its signs go on with the characters. -/
theorem patternSigns?_escapePattern (s rest : List Char) :
    patternSigns? escapeChar false (escapePattern s ++ rest) =
      (patternSigns? escapeChar false rest).map (s.map .char ++ ·) := by
  induction s with
  | nil => simp [escapePattern]
  | cons c s ih =>
    have hsplit : escapePattern (c :: s) ++ rest =
        (if c == '%' || c == '_' || c == escapeChar then [escapeChar, c] else [c]) ++
          (escapePattern s ++ rest) := by
      rw [escapePattern, List.flatMap_cons, List.append_assoc]
      rfl
    have hread : patternSigns? escapeChar false (escapePattern (c :: s) ++ rest) =
        (patternSigns? escapeChar false (escapePattern s ++ rest)).map (.char c :: ·) := by
      rw [hsplit]
      split
      · rfl
      · rename_i hplain
        simp only [Bool.or_eq_true, beq_iff_eq, not_or] at hplain
        obtain ⟨⟨hrun, hone⟩, hescape⟩ := hplain
        simp [patternSigns?, PatternSign.of, hrun, hone, hescape]
    rw [hread, ih, Option.map_map]
    rfl

theorem patternSigns?_pattern (anchor : Anchor) (s : String) :
    patternSigns? escapeChar false (pattern anchor s).toList = some (signsFor anchor s.toList) := by
  have hopen : patternSigns? escapeChar false ['%'] = some [.run] := by decide
  have hbody : patternSigns? escapeChar false (escapePattern s.toList ++ ['%']) =
      some (s.toList.map .char ++ [.run]) := by
    rw [patternSigns?_escapePattern, hopen]
    rfl
  have hrun : ∀ cs, patternSigns? escapeChar false ('%' :: cs) =
      (patternSigns? escapeChar false cs).map (.run :: ·) := fun cs => rfl
  unfold pattern
  rw [String.toList_ofList]
  cases anchor with
  | start => exact hbody
  | stop =>
    have hclosed := patternSigns?_escapePattern s.toList []
    rw [List.append_nil] at hclosed
    show patternSigns? escapeChar false ('%' :: escapePattern s.toList) = _
    rw [hrun, hclosed]
    simp [patternSigns?, signsFor]
  | anywhere =>
    show patternSigns? escapeChar false ('%' :: (escapePattern s.toList ++ ['%'])) = _
    rw [hrun, hbody]
    rfl

/-- A text is LIKE the pattern of another exactly if it has that at the place. -/
theorem like?_pattern (anchor : Anchor) (s text : String) :
    like? escapeChar (pattern anchor s) text = some (decide (anchor.Finds s text)) := by
  rw [like?, patternSigns?_pattern, Option.map_some, Option.some.injEq, Bool.eq_iff_iff,
    matchesSigns_signsFor, decide_eq_true_eq]

example : pattern .anywhere "50%_off!" = "%50!%!_off!!%" ∧
    like? escapeChar "%50!%!_off!!%" "50 % off!" = some false := by
  decide

end Condition

/-! ## Predicates -/

/-- What is known of the texts of a row: the parameters and their values, what the database makes of
LOWER, and the texts of columns. -/
structure TextRow where
  params : List Operand
  lower : String → String
  column : Sql.Expr → Option String

namespace TextRow

/-- The text an expression comes to; NULL and what is no text come to none. -/
def text? (r : TextRow) : Sql.Expr → Option String
  | .param (n + 1) =>
    match r.params[n]? with
    | some (.text s) => some s
    | _ => none
  | .call "LOWER" false [e] => (r.text? e).map r.lower
  | e => r.column e

/-- Whether a test with LIKE succeeds, where it compares texts with a pattern. -/
def succeeds? (r : TextRow) : Sql.Expr → Option Bool
  | .like e negated pattern escape =>
    (r.text? e).bind fun text =>
      (r.text? pattern).bind fun p => (Sql.like? escape p text).map (· != negated)
  | _ => none

variable {r : TextRow}

theorem text?_bound {bound : List Operand} {s : String}
    (h : bound ++ [.text s] <+: r.params) : r.text? (.param (bound.length + 1)) = some s := by
  obtain ⟨more, hmore⟩ := h
  have hvalue : r.params[bound.length]? = some (.text s) := by
    rw [← hmore, List.append_assoc, List.getElem?_append_right (Nat.le_refl _), Nat.sub_self]
    rfl
  rw [text?, hvalue]

theorem text?_casedColumn {case : LetterCase} {e : Sql.Expr} {s : String}
    (hlower : case = .insensitive → r.lower = Text.lower) (h : r.text? e = some s) :
    r.text? (Condition.casedColumn case e) = some (Condition.cased case s) := by
  cases case with
  | sensitive => exact h
  | insensitive =>
    show (r.text? e).map r.lower = some (Text.lower s)
    rw [h, Option.map_some, hlower rfl]

end TextRow

namespace Condition

/-- A predicate that looks for a text is a test with LIKE, the last parameter of which is a pattern.
Over a column with some text the test succeeds exactly if the operand stands in that text at the
place that is asked for; where letter case does not count, in lower case both. -/
theorem find_succeeds_iff (d : Dialect) (column : Sql.Expr) (path : Path) (anchor : Anchor)
    (case : LetterCase) (s : String) (more bound : List Operand) :
    ∃ e p, (ofPredicate d column ⟨path, .find anchor case, .text s :: more⟩).run bound =
        .ok (e, bound ++ [.text p]) ∧
      ∀ (r : TextRow) (text : String), bound ++ [.text p] <+: r.params →
        (case = .insensitive → r.lower = Text.lower) → r.text? column = some text →
          ∃ success, r.succeeds? e = some success ∧
            (success = true ↔ anchor.Finds (cased case s) (cased case text)) := by
  refine ⟨.like (casedColumn case column) false (.param (bound.length + 1)) escapeChar,
    pattern anchor (cased case s), ?_, fun r text hbound hlower htext => ?_⟩
  · simp [ofPredicate, bind, Operand.plainText]
    rfl
  · refine ⟨decide (anchor.Finds (cased case s) (cased case text)), ?_, decide_eq_true_iff⟩
    rw [TextRow.succeeds?, TextRow.text?_casedColumn hlower htext, TextRow.text?_bound hbound]
    simp [like?_pattern]

/-- A row of rebates with a title, read behind a condition on the year. -/
def rebateRow (p title : String) : TextRow where
  params := [.int 2024, .text p]
  lower := Text.lower
  column := fun _ => some title

/-- All three signs that have a meaning in patterns are looked for as themselves. -/
theorem find_succeeds_iff_rebates :
    ∃ e p, (ofPredicate .sqlite (.column (some "rebates") "title")
        ⟨{ column := "title" }, .find .anywhere .insensitive, [.text "50%_Off!"]⟩).run
          [.int 2024] = .ok (e, [.int 2024, .text p]) ∧
      (rebateRow p "NOW 50%_OFF!!").succeeds? e = some true ∧
      (rebateRow p "Now 50% off!").succeeds? e = some false := by
  obtain ⟨e, p, hrun, h⟩ := find_succeeds_iff .sqlite (.column (some "rebates") "title")
    { column := "title" } .anywhere .insensitive "50%_Off!" [] [.int 2024]
  refine ⟨e, p, hrun, ?_, ?_⟩
  · obtain ⟨success, hsuccess, hiff⟩ :=
      h (rebateRow p "NOW 50%_OFF!!") "NOW 50%_OFF!!" List.prefix_rfl (fun _ => rfl) rfl
    rw [hsuccess, hiff.2 (by decide +kernel)]
  · obtain ⟨success, hsuccess, hiff⟩ :=
      h (rebateRow p "Now 50% off!") "Now 50% off!" List.prefix_rfl (fun _ => rfl) rfl
    rw [hsuccess, Bool.eq_false_iff.2 fun htrue => absurd (hiff.1 htrue) (by decide +kernel)]

end Condition

end Rollup
