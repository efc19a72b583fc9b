/-
Texts that are looked for in others, where LIKE knows sets of characters. In T-SQL an opening
bracket begins a set. A pattern has a mark before every other character of the operand that has a
meaning, and none before a bracket. So without brackets it is read as in every dialect; and of an
operand with a bracket it asks for fewer characters than that has, or it is no pattern.
-/
import Mathlib.Algebra.GroupWithZero.Nat
import Rollup.Proofs.Compile.Patterns

namespace Rollup

theorem Anchor.Finds.length_le {anchor : Anchor} {s text : String} (h : anchor.Finds s text) :
    s.toList.length ≤ text.toList.length := by
  cases anchor with
  | start => exact List.IsPrefix.length_le h
  | stop => exact List.IsSuffix.length_le h
  | anywhere => exact List.IsInfix.length_le h

theorem Anchor.finds_self (anchor : Anchor) (s : String) : anchor.Finds s s := by
  cases anchor with
  | start => exact List.prefix_rfl
  | stop => exact List.suffix_rfl
  | anywhere => exact List.infix_rfl

namespace Sql

/-! ## LIKE with sets -/

/-- A character of a set, and whether the escape is before it. -/
structure SetChar where
  escaped : Bool
  char : Char

/-- A part of a set: one character, or all from one to another. -/
inductive SetPart where
  | char (c : Char)
  | range (low high : Char)

/-- The parts of a set. A hyphen between two characters makes a range of them. -/
def setParts : List SetChar → List SetPart
  | [] => []
  | low :: ⟨false, '-'⟩ :: high :: body => .range low.char high.char :: setParts body
  | c :: body => .char c.char :: setParts body

/-- One sign of a pattern that may have sets. -/
inductive SetSign where
  | plain (sign : PatternSign)
  /-- Any one character of a set, or any one that is in none of its parts. -/
  | set (negated : Bool) (parts : List SetPart)

/-- The set of what stands between brackets. A caret at its start negates it. -/
def SetSign.ofBody : List SetChar → SetSign
  | ⟨false, '^'⟩ :: body => .set true (setParts body)
  | body => .set false (setParts body)

/-- The signs of a pattern; `body` holds what was read of a set that is not closed yet. A character
behind the escape stands for itself, in a set as well. A pattern that ends in the escape or in a set
is none. -/
def setSigns? (escape : Char) (body : Option (List SetChar)) (escaped : Bool) :
    List Char → Option (List SetSign)
  | [] => if escaped || body.isSome then none else some []
  | c :: pattern =>
    match body with
    | none =>
      if escaped then (setSigns? escape none false pattern).map (.plain (.char c) :: ·)
      else if c = escape then setSigns? escape none true pattern
      else if c = '[' then setSigns? escape (some []) false pattern
      else (setSigns? escape none false pattern).map (.plain (.of c) :: ·)
    | some body =>
      if escaped then setSigns? escape (some (body ++ [⟨true, c⟩])) false pattern
      else if c = escape then setSigns? escape (some body) true pattern
      else if c = ']' then (setSigns? escape none false pattern).map (.ofBody body :: ·)
      else setSigns? escape (some (body ++ [⟨false, c⟩])) false pattern

/-- Whether a character is in a part of a set. What is in a range is up to the collation. -/
def SetPart.has (within : Char → Char → Char → Bool) (c : Char) : SetPart → Bool
  | char d => c == d
  | range low high => within low high c

/-- Whether a sign that stands for one character may stand for this one. -/
def SetSign.accepts (within : Char → Char → Char → Bool) (c : Char) : SetSign → Bool
  | plain .run => false
  | plain .one => true
  | plain (.char d) => c == d
  | set negated parts => parts.any (·.has within c) != negated

/-- Whether a text as a whole matches some signs. A run is tried at every length. -/
def matchesSetSigns (within : Char → Char → Char → Bool) : List SetSign → List Char → Bool
  | [], text => text.isEmpty
  | .plain .run :: signs, text => text.tails.any (matchesSetSigns within signs)
  | sign :: signs, text =>
    text.head?.any (sign.accepts within) && matchesSetSigns within signs text.tail

/-- Whether a text is LIKE a pattern that may have sets. Nothing is LIKE what is no pattern. -/
def likeWithSets (within : Char → Char → Char → Bool) (escape : Char) (pattern text : String) :
    Bool :=
  (setSigns? escape none false pattern.toList).any (matchesSetSigns within · text.toList)

section

variable {within : Char → Char → Char → Bool} {escape : Char} {text : List Char}

theorem matchesSetSigns_run {signs : List SetSign} :
    matchesSetSigns within (.plain .run :: signs) text = true ↔
      ∃ rest, rest <:+ text ∧ matchesSetSigns within signs rest = true := by
  rw [matchesSetSigns, List.any_eq_true]
  exact exists_congr fun rest => and_congr_left fun _ => List.mem_tails ..

theorem matchesSetSigns_cons {sign : SetSign} {signs : List SetSign}
    (hsign : sign ≠ .plain .run) :
    matchesSetSigns within (sign :: signs) text = true ↔ ∃ c rest, text = c :: rest ∧
      sign.accepts within c = true ∧ matchesSetSigns within signs rest = true := by
  rw [matchesSetSigns]
  · cases text with
    | nil => simp
    | cons c text => simp
  · exact hsign

/-! ## Patterns without sets -/

theorem setSigns?_plain (escaped : Bool) {pattern : List Char} (h : '[' ∉ pattern) :
    setSigns? escape none escaped pattern =
      (patternSigns? escape escaped pattern).map (List.map .plain) := by
  induction pattern generalizing escaped with
  | nil => cases escaped <;> rfl
  | cons c pattern ih =>
    obtain ⟨hc, hrest⟩ := not_or.1 (mt List.mem_cons.2 h)
    rw [setSigns?, patternSigns?, ih _ hrest, ih _ hrest]
    simp only [if_neg (Ne.symm hc)]
    split
    · rw [Option.map_map, Option.map_map]
      rfl
    · split
      · rfl
      · rw [Option.map_map, Option.map_map]
        rfl

theorem matchesSetSigns_plain (signs : List PatternSign) (text : List Char) :
    matchesSetSigns within (signs.map .plain) text = matchesSigns signs text := by
  induction signs generalizing text with
  | nil => rfl
  | cons sign signs ih =>
    cases sign with
    | run =>
      change text.tails.any (matchesSetSigns within (signs.map .plain)) =
        text.tails.any (matchesSigns signs)
      rw [funext ih]
    | one =>
      cases text with
      | nil => rfl
      | cons c text =>
        change (true && matchesSetSigns within (signs.map .plain) text) = matchesSigns signs text
        rw [Bool.true_and, ih]
    | char d =>
      cases text with
      | nil => rfl
      | cons c text =>
        change (c == d && matchesSetSigns within (signs.map .plain) text) =
          (some c == some d && matchesSigns signs text)
        rw [ih]
        rfl

/-! ## The length of a pattern -/

/-- The number of characters that a sign stands for at least. -/
def SetSign.width : SetSign → Nat
  | plain .run => 0
  | _ => 1

/-- The number of characters that a pattern stands for at least. -/
def patternWidth (signs : List SetSign) : Nat :=
  (signs.map SetSign.width).sum

theorem patternWidth_cons (sign : SetSign) (signs : List SetSign) :
    patternWidth (sign :: signs) = sign.width + patternWidth signs :=
  rfl

theorem patternWidth_append (signs others : List SetSign) :
    patternWidth (signs ++ others) = patternWidth signs + patternWidth others := by
  simp only [patternWidth, List.map_append, List.sum_append]

/-- Where some text matches, one of the pattern's width does: nothing has to stand for a run. -/
theorem exists_matches_width {signs : List SetSign}
    (h : matchesSetSigns within signs text = true) :
    ∃ short : List Char, short.length = patternWidth signs ∧
      matchesSetSigns within signs short = true := by
  induction signs generalizing text with
  | nil => exact ⟨[], rfl, rfl⟩
  | cons sign signs ih =>
    by_cases hsign : sign = .plain .run
    · subst hsign
      obtain ⟨rest, -, hrest⟩ := matchesSetSigns_run.1 h
      obtain ⟨short, hlength, hshort⟩ := ih hrest
      refine ⟨short, ?_, matchesSetSigns_run.2 ⟨short, List.suffix_rfl, hshort⟩⟩
      rw [hlength, patternWidth_cons, SetSign.width, Nat.zero_add]
    · obtain ⟨c, rest, -, hc, hrest⟩ := (matchesSetSigns_cons hsign).1 h
      obtain ⟨short, hlength, hshort⟩ := ih hrest
      refine ⟨c :: short, ?_, (matchesSetSigns_cons hsign).2 ⟨c, short, rfl, hc, hshort⟩⟩
      have hwidth : sign.width = 1 := by
        unfold SetSign.width
        split
        · contradiction
        · rfl
      rw [List.length_cons, hlength, patternWidth_cons, hwidth, Nat.add_comm]

end

end Sql

namespace Condition

open Sql

/-! ## Patterns of operands -/

/-- What one character of an operand adds to the signs of its pattern: outside of sets one sign or,
when it opens a set, none; inside of a set one sign when it closes it. -/
theorem setSigns?_escapePattern_cons (c : Char) (cs : List Char) (body : Option (List SetChar)) :
    ∃ signs body', patternWidth signs ≤ 1 ∧
      (body = none → if c = '[' then signs = [] else body' = none) ∧
      setSigns? escapeChar body false (escapePattern [c] ++ cs) =
        (setSigns? escapeChar body' false cs).map (signs ++ ·) := by
  have hone (sign : SetSign) : patternWidth [sign] ≤ 1 := by
    cases sign with
    | plain sign =>
      cases sign with
      | run => exact Nat.zero_le 1
      | one | char => exact Nat.le_refl 1
    | set => exact Nat.le_refl 1
  have hnone (signs : Option (List SetSign)) : signs = signs.map ([] ++ ·) := by
    cases signs <;> rfl
  by_cases hmark : (c == '%' || c == '_' || c == escapeChar) = true
  · have hpattern : escapePattern [c] ++ cs = escapeChar :: c :: cs := by
      rw [escapePattern, List.flatMap_singleton, if_pos hmark]
      rfl
    have hc : c ≠ '[' := by
      rintro rfl
      exact absurd hmark (by decide)
    rw [hpattern]
    cases body with
    | none => exact ⟨[.plain (.char c)], none, hone _, fun _ => by rw [if_neg hc], rfl⟩
    | some body => exact ⟨[], some (body ++ [⟨true, c⟩]), by decide, fun h => absurd h (Option.some_ne_none _), hnone _⟩
  · have hpattern : escapePattern [c] ++ cs = c :: cs := by
      rw [escapePattern, List.flatMap_singleton, if_neg hmark]
      rfl
    have hescape : c ≠ escapeChar := by
      rintro rfl
      exact hmark (by decide)
    rw [hpattern]
    cases body with
    | none =>
      by_cases hc : c = '['
      · refine ⟨[], some [], by decide, fun _ => by rw [if_pos hc], ?_⟩
        simp only [setSigns?, if_neg hescape, if_pos hc]
        exact hnone _
      · refine ⟨[.plain (.of c)], none, hone _, fun _ => by rw [if_neg hc], ?_⟩
        simp only [setSigns?, if_neg hescape, if_neg hc]
        rfl
    | some body =>
      by_cases hc : c = ']'
      · refine ⟨[.ofBody body], none, hone _, fun h => absurd h (Option.some_ne_none _), ?_⟩
        simp only [setSigns?, if_neg hescape, if_pos hc]
        rfl
      · refine ⟨[], some (body ++ [⟨false, c⟩]), by decide, fun h => absurd h (Option.some_ne_none _), ?_⟩
        simp only [setSigns?, if_neg hescape, if_neg hc]
        exact hnone _

/-- A pattern is no longer than the operand it is made of, and shorter if that opens a set. -/
theorem patternWidth_escapePattern {rest : List Char}
    (hrest : ∀ body signs, setSigns? escapeChar body false rest = some signs →
      patternWidth signs = 0) (s : List Char) {body : Option (List SetChar)} {signs : List SetSign}
    (h : setSigns? escapeChar body false (escapePattern s ++ rest) = some signs) :
    patternWidth signs ≤ s.length ∧
      (body = none → '[' ∈ s → patternWidth signs < s.length) := by
  induction s generalizing body signs with
  | nil => exact ⟨(hrest body signs h).le, fun _ hmem => absurd hmem List.not_mem_nil⟩
  | cons c s ih =>
    have hsplit :
        escapePattern (c :: s) ++ rest = escapePattern [c] ++ (escapePattern s ++ rest) := by
      simp only [escapePattern, List.flatMap_cons, List.flatMap_nil, List.append_nil,
        List.append_assoc]
    obtain ⟨first, body', hfirst, hopen, hread⟩ :=
      setSigns?_escapePattern_cons c (escapePattern s ++ rest) body
    rw [hsplit, hread, Option.map_eq_some_iff] at h
    obtain ⟨others, hothers, rfl⟩ := h
    obtain ⟨hle, hlt⟩ := ih hothers
    rw [patternWidth_append, List.length_cons]
    refine ⟨by omega, fun hnone hmem => ?_⟩
    by_cases hc : c = '['
    · have hempty : first = [] := by simpa [hc] using hopen hnone
      have hzero : patternWidth first = 0 := by
        rw [hempty]
        rfl
      omega
    · have hmore := hlt (by simpa [hc] using hopen hnone)
        ((List.mem_cons.1 hmem).resolve_left (Ne.symm hc))
      omega

/-- The pattern of an operand that opens a set asks for fewer characters than the operand has. -/
theorem patternWidth_pattern {anchor : Anchor} {s : String} {signs : List SetSign}
    (hmem : '[' ∈ s.toList)
    (h : setSigns? escapeChar none false (pattern anchor s).toList = some signs) :
    patternWidth signs < s.toList.length := by
  have hclosed : ∀ body signs, setSigns? escapeChar body false [] = some signs →
      patternWidth signs = 0 := by
    intro body signs h
    cases body <;> cases h
    rfl
  have hopen : ∀ body signs, setSigns? escapeChar body false ['%'] = some signs →
      patternWidth signs = 0 := by
    intro body signs h
    cases body <;> cases h
    rfl
  unfold pattern at h
  rw [String.toList_ofList] at h
  cases anchor with
  | start => exact (patternWidth_escapePattern hopen s.toList h).2 rfl hmem
  | stop =>
    obtain ⟨others, hothers, rfl⟩ := Option.map_eq_some_iff.1 h
    rw [← List.append_nil (escapePattern s.toList)] at hothers
    have hlt := (patternWidth_escapePattern hclosed s.toList hothers).2 rfl hmem
    change patternWidth (.plain .run :: others) < _
    rwa [patternWidth_cons, SetSign.width, Nat.zero_add]
  | anywhere =>
    obtain ⟨others, hothers, rfl⟩ := Option.map_eq_some_iff.1 h
    have hlt := (patternWidth_escapePattern hopen s.toList hothers).2 rfl hmem
    change patternWidth (.plain .run :: others) < _
    rwa [patternWidth_cons, SetSign.width, Nat.zero_add]

theorem not_mem_pattern {anchor : Anchor} {s : String} (h : '[' ∉ s.toList) :
    '[' ∉ (pattern anchor s).toList := by
  have hbody : '[' ∉ escapePattern s.toList := by
    rw [escapePattern, List.mem_flatMap]
    rintro ⟨c, hc, hmem⟩
    have hne : '[' ≠ c := by
      rintro rfl
      exact h hc
    split at hmem
    · simp [escapeChar, hne] at hmem
    · exact hne (List.mem_singleton.1 hmem)
  unfold pattern
  rw [String.toList_ofList]
  cases anchor <;> simp [hbody]

/-- Where LIKE knows sets, it finds an operand by its pattern exactly if no bracket opens one. An
operand with a bracket would have to match itself, and so would a text that is shorter. -/
theorem likeWithSets_pattern_iff (within : Char → Char → Char → Bool) (anchor : Anchor)
    (s : String) :
    (∀ text, likeWithSets within escapeChar (pattern anchor s) text = true ↔ anchor.Finds s text) ↔
      '[' ∉ s.toList := by
  constructor
  · intro hfinds hmem
    have hself := (hfinds s).2 (anchor.finds_self s)
    obtain ⟨signs, hsigns, hmatches⟩ := (Option.any_eq_true _ _).1 hself
    obtain ⟨short, hlength, hshort⟩ := exists_matches_width hmatches
    have hlike :
        likeWithSets within escapeChar (pattern anchor s) (String.ofList short) = true := by
      rw [likeWithSets, hsigns, Option.any_some, String.toList_ofList, hshort]
    have hle := ((hfinds _).1 hlike).length_le
    have hlt := patternWidth_pattern hmem hsigns
    rw [String.toList_ofList] at hle
    omega
  · intro hmem text
    rw [likeWithSets, setSigns?_plain false (not_mem_pattern hmem), patternSigns?_pattern,
      Option.map_some, Option.any_some, matchesSetSigns_plain, matchesSigns_signsFor]

/-- Whether the number of a character is in a range. -/
def codeBetween (low high c : Char) : Bool :=
  low ≤ c && c ≤ high

example : likeWithSets codeBetween escapeChar "[^a-c!]]%" "day" = true ∧
    likeWithSets codeBetween escapeChar "[^a-c!]]%" "call" = false := by
  decide

/-- A text is looked for in T-SQL by its pattern, and that finds it exactly if it has no opening
bracket, in lower case where letter case does not count. -/
theorem find_likeWithSets_iff (column : Sql.Expr) (path : Path) (anchor : Anchor)
    (case : LetterCase) (s : String) (more bound : List Operand)
    (within : Char → Char → Char → Bool) :
    ∃ p, (ofPredicate .tsql column ⟨path, .find anchor case, .text s :: more⟩).run bound =
        .ok (.like (casedColumn case column) false (.param (bound.length + 1)) escapeChar,
          bound ++ [.text p]) ∧
      ((∀ text, likeWithSets within escapeChar p text = true ↔ anchor.Finds (cased case s) text) ↔
        '[' ∉ (cased case s).toList) := by
  refine ⟨pattern anchor (cased case s), ?_, likeWithSets_pattern_iff within anchor (cased case s)⟩
  simp [ofPredicate, bind, Operand.plainText]
  rfl

/-- Guests are looked for whose note starts with a mark in brackets. The note that does is not
found, and one is that starts with a letter of the mark. -/
theorem find_likeWithSets_marked :
    (ofPredicate .tsql (.column (some "guests") "note")
        ⟨{ column := "note" }, .find .start .sensitive, [.text "[vip]"]⟩).run [] =
      .ok (.like (.column (some "guests") "note") false (.param 1) '!', [.text "[vip]%"]) ∧
    Anchor.start.Finds "[vip]" "[vip] lounge" ∧
    likeWithSets codeBetween '!' "[vip]%" "[vip] lounge" = false ∧
    ¬ Anchor.start.Finds "[vip]" "visitor" ∧
    likeWithSets codeBetween '!' "[vip]%" "visitor" = true := by
  refine ⟨?_, by decide, by decide, by decide, by decide⟩
  simp [ofPredicate, bind, Operand.plainText]
  rfl

end Condition

end Rollup
