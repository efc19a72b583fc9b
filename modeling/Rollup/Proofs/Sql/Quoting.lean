/-
Quoted names and texts read again. A reader that takes a doubled closing delimiter for one of the
text, and any other for the end, reads exactly what is written in quotes: all of it and no more, as
long as what follows does not begin with the closing delimiter. So nothing in a name or in a text
ends its quotes.
-/
import Mathlib.Logic.Basic
import Rollup.Sql.Dialect

namespace Rollup

namespace Text

/-! ## Up to the closing delimiter -/

section

variable {closing : Char} {s rest text : List Char}

theorem scanDoubled_cons_of_ne {c : Char} (h : c ≠ closing) (text : List Char) :
    scanDoubled closing (c :: text) = (scanDoubled closing text).map fun (s, r) => (c :: s, r) := by
  cases text with
  | nil => simp [scanDoubled, h]
  | cons d text => simp [scanDoubled, h]

theorem scanDoubled_closing (h : rest.head? ≠ some closing) :
    scanDoubled closing (closing :: rest) = some ([], rest) := by
  cases rest with
  | nil => simp [scanDoubled]
  | cons c rest =>
    have hc : c ≠ closing := fun hc => h (congrArg some hc)
    simp [scanDoubled, hc]

/-- What is written is read, by induction on the text: a delimiter in it is met twice. -/
theorem scanDoubled_doubled (h : rest.head? ≠ some closing) (s : List Char) :
    scanDoubled closing (doubled closing s ++ closing :: rest) = some (s, rest) := by
  induction s with
  | nil => exact scanDoubled_closing h
  | cons c s ih =>
    rw [doubled]
    split
    · rename_i hc
      rw [eq_of_beq hc]
      simp [scanDoubled, ih]
    · rename_i hc
      rw [List.cons_append, scanDoubled_cons_of_ne fun heq => hc (beq_iff_eq.2 heq), ih]
      rfl

/-- What is read is written, by the reader's own cases. -/
theorem eq_doubled_of_scanDoubled (h : scanDoubled closing text = some (s, rest)) :
    text = doubled closing s ++ closing :: rest ∧ rest.head? ≠ some closing := by
  fun_induction scanDoubled closing text generalizing s with
  | case1 => cases h
  | case2 c hc =>
    cases h
    rw [eq_of_beq hc]
    exact ⟨rfl, fun heq => by cases heq⟩
  | case3 c hc => cases h
  | case4 c d text hc hd ih =>
    obtain ⟨⟨s, r⟩, hs, heq⟩ := Option.map_eq_some_iff.1 h
    cases heq
    obtain ⟨rfl, hrest⟩ := ih hs
    rw [doubled, if_pos hc, eq_of_beq hd, eq_of_beq hc]
    exact ⟨rfl, hrest⟩
  | case5 c d text hc hd =>
    cases h
    rw [eq_of_beq hc]
    exact ⟨rfl, fun heq => hd (beq_iff_eq.2 (Option.some.inj heq))⟩
  | case6 c d text hc ih =>
    obtain ⟨⟨s, r⟩, hs, heq⟩ := Option.map_eq_some_iff.1 h
    cases heq
    obtain ⟨htext, hrest⟩ := ih hs
    rw [doubled, if_neg hc, htext]
    exact ⟨rfl, hrest⟩

theorem scanDoubled_eq_some_iff : scanDoubled closing text = some (s, rest) ↔
    text = doubled closing s ++ closing :: rest ∧ rest.head? ≠ some closing := by
  refine ⟨eq_doubled_of_scanDoubled, ?_⟩
  rintro ⟨rfl, h⟩
  exact scanDoubled_doubled h s

end

/-! ## Between delimiters -/

/-- Reads a text between its delimiters: the text and what follows it. -/
def readEnclosed? (opening closing : Char) : List Char → Option (String × List Char)
  | [] => none
  | c :: text =>
    if c = opening then
      (scanDoubled closing text).map fun (s, rest) => (String.ofList s, rest)
    else none

/-- Exactly what is written between delimiters is read there. -/
theorem readEnclosed?_eq_some_iff {opening closing : Char} {text rest : List Char} {s : String} :
    readEnclosed? opening closing text = some (s, rest) ↔
      text = (enclose opening closing s).toList ++ rest ∧ rest.head? ≠ some closing := by
  have hwritten : (enclose opening closing s).toList ++ rest =
      opening :: (doubled closing s.toList ++ closing :: rest) := by
    rw [enclose, String.toList_ofList, List.cons_append, List.cons_append, List.append_assoc]
    rfl
  rw [hwritten]
  cases text with
  | nil => simp [readEnclosed?]
  | cons c text =>
    rw [readEnclosed?, List.cons.injEq]
    split
    · rename_i hc
      rw [Option.map_eq_some_iff, and_iff_right hc, ← scanDoubled_eq_some_iff]
      constructor
      · rintro ⟨⟨cs, r⟩, hcs, heq⟩
        cases heq
        rwa [String.toList_ofList]
      · intro hs
        exact ⟨_, hs, congrArg (·, rest) String.ofList_toList⟩
    · rename_i hc
      simp [hc]

end Text

namespace Dialect

/-- Reads a name in the dialect's quotes. -/
def readName? (d : Dialect) (text : List Char) : Option (String × List Char) :=
  Text.readEnclosed? d.nameDelimiters.1 d.nameDelimiters.2 text

/-- Reads a string literal of standard SQL, which may be marked as national text. -/
def readText? : List Char → Option (String × List Char)
  | 'N' :: text => Text.readEnclosed? '\'' '\'' text
  | text => Text.readEnclosed? '\'' '\'' text

theorem readName?_eq_some_iff {d : Dialect} {text rest : List Char} {s : String} :
    d.readName? text = some (s, rest) ↔
      text = (d.quoteName s).toList ++ rest ∧ rest.head? ≠ some d.nameDelimiters.2 :=
  Text.readEnclosed?_eq_some_iff

/-- The mark of national text is read over. -/
theorem readText?_quoteText (d : Dialect) (s : String) (rest : List Char) :
    readText? ((d.quoteText s).toList ++ rest) =
      Text.readEnclosed? '\'' '\'' ((Text.enclose '\'' '\'' s).toList ++ rest) := by
  have hplain : readText? ((Text.enclose '\'' '\'' s).toList ++ rest) =
      Text.readEnclosed? '\'' '\'' ((Text.enclose '\'' '\'' s).toList ++ rest) := by
    rw [Text.enclose, String.toList_ofList]
    rfl
  unfold quoteText
  dsimp only
  split
  · rw [String.toList_append]
    rfl
  · exact hplain

/-- A name or a text in quotes, with anything behind it, is read as just that name or text and all
of what is behind, exactly if that does not begin with the closing delimiter. -/
theorem quoted_isRead_iff (d : Dialect) (s : String) (rest : List Char) :
    (d.readName? ((d.quoteName s).toList ++ rest) = some (s, rest) ↔
      rest.head? ≠ some d.nameDelimiters.2) ∧
    (readText? ((d.quoteText s).toList ++ rest) = some (s, rest) ↔ rest.head? ≠ some '\'') := by
  constructor
  · rw [readName?_eq_some_iff]
    exact and_iff_right rfl
  · rw [readText?_quoteText, Text.readEnclosed?_eq_some_iff]
    exact and_iff_right rfl

example : tsql.readName? "[a]]].[b]".toList = some ("a]", ".[b]".toList) := by
  decide

example : readText? "N'''é''' OR 1".toList = some ("'é'", " OR 1".toList) := by
  decide

end Dialect

end Rollup
