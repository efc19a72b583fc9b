/-
Aggregate calls in texts that are put together from parts. Where no call begins or ends in a part or
reaches over it, the calls before it and those after it are found apart. Quotes around a name, the
text around a truncated value and the words for truth values are such parts, so what a dialect has
of its own neither makes a call nor breaks one, unless it ends in a word that runs on into what
follows.
-/
import Rollup.Proofs.Sql.Alias
import Rollup.Sql.AggregateCall
import Rollup.Sql.Truncation
import Mathlib.Data.List.Infix

namespace Rollup.Sql

open Text

/-! ## Names and parentheses -/

/-- Whether a text begins with the rest of a name, in any case, and an opening parenthesis behind
blanks. -/
def completes (name text : List Char) : Bool :=
  (afterName? name text).any fun rest => (rest.dropWhile isBlank).head? == some '('

theorem startsAggregateCall_eq (text : List Char) :
    startsAggregateCall text = aggregateNames.any fun name => completes name.toList text := rfl

@[simp] theorem completes_empty (name : List Char) : completes name [] = false := by
  cases name <;> rfl

theorem completes_nil_cons (c : Char) (text : List Char) :
    completes [] (c :: text) = if isBlank c then completes [] text else c == '(' := by
  by_cases hc : isBlank c
  · simp [completes, afterName?, hc]
  · simp [completes, afterName?, hc]

theorem completes_cons_cons (n c : Char) (name text : List Char) :
    completes (n :: name) (c :: text) = (foldCase c == n && completes name text) := by
  by_cases hc : foldCase c = n
  · simp [completes, afterName?, hc]
  · simp [completes, afterName?, hc]

theorem paren_mem_of_completes {name text : List Char} (h : completes name text = true) :
    '(' ∈ text := by
  induction text generalizing name with
  | nil => simp at h
  | cons c text ih =>
    cases name with
    | nil =>
      rw [completes_nil_cons] at h
      split at h
      · exact List.mem_cons_of_mem _ (ih h)
      · rw [eq_of_beq h]
        exact List.mem_cons_self
    | cons n name =>
      rw [completes_cons_cons, Bool.and_eq_true] at h
      exact List.mem_cons_of_mem _ (ih h.2)

/-- Without a parenthesis nothing is called. -/
theorem hasAggregateCall_of_no_paren {text : List Char} (h : '(' ∉ text) (inWord : Bool) :
    hasAggregateCall inWord text = false := by
  induction text generalizing inWord with
  | nil => rfl
  | cons c text ih =>
    have hstart : startsAggregateCall (c :: text) = false := by
      rw [startsAggregateCall_eq, List.any_eq_false]
      exact fun name _ hname => h (paren_mem_of_completes hname)
    rw [hasAggregateCall, hstart, Bool.and_false, Bool.false_or,
      ih fun hmem => h (List.mem_cons_of_mem _ hmem)]

/-- A name that is completed stays so before more text, and what has no parenthesis completes none. -/
theorem completes_append {name text : List Char} (h : completes name text = true)
    (after : List Char) : completes name (text ++ after) = true := by
  induction text generalizing name with
  | nil => simp at h
  | cons c text ih =>
    cases name with
    | nil =>
      rw [completes_nil_cons] at h
      rw [List.cons_append, completes_nil_cons]
      split at h
      · rename_i hc
        rw [if_pos hc, ih h]
      · rename_i hc
        rw [if_neg hc, h]
    | cons n name =>
      rw [completes_cons_cons, Bool.and_eq_true] at h
      rw [List.cons_append, completes_cons_cons, h.1, ih h.2, Bool.and_self]

theorem completes_of_append {name text after : List Char} (hafter : '(' ∉ after)
    (h : completes name (text ++ after) = true) : completes name text = true := by
  induction text generalizing name with
  | nil => exact (hafter (paren_mem_of_completes h)).elim
  | cons c text ih =>
    cases name with
    | nil =>
      rw [List.cons_append, completes_nil_cons] at h
      rw [completes_nil_cons]
      split at h
      · rename_i hc
        rw [if_pos hc, ih h]
      · rename_i hc
        rw [if_neg hc, h]
    | cons n name =>
      rw [List.cons_append, completes_cons_cons, Bool.and_eq_true] at h
      rw [completes_cons_cons, h.1, ih h.2, Bool.and_self]

theorem startsAggregateCall_append {text : List Char} (h : startsAggregateCall text = true)
    (after : List Char) : startsAggregateCall (text ++ after) = true := by
  rw [startsAggregateCall_eq, List.any_eq_true] at h ⊢
  obtain ⟨name, hname, hcompletes⟩ := h
  exact ⟨name, hname, completes_append hcompletes after⟩

/-- A text keeps its calls before more text. -/
theorem hasAggregateCall_append {inWord : Bool} {text : List Char}
    (h : hasAggregateCall inWord text = true) (after : List Char) :
    hasAggregateCall inWord (text ++ after) = true := by
  induction text generalizing inWord with
  | nil => cases h
  | cons c text ih =>
    rw [hasAggregateCall, Bool.or_eq_true, Bool.and_eq_true] at h
    rw [List.cons_append, hasAggregateCall, Bool.or_eq_true, Bool.and_eq_true]
    exact h.imp (And.imp_right fun hstart => startsAggregateCall_append hstart after) ih

/-- Text without a parenthesis adds no call behind another. -/
theorem hasAggregateCall_of_append {inWord : Bool} {text after : List Char} (hafter : '(' ∉ after)
    (h : hasAggregateCall inWord (text ++ after) = true) : hasAggregateCall inWord text = true := by
  induction text generalizing inWord with
  | nil =>
    rw [List.nil_append, hasAggregateCall_of_no_paren hafter] at h
    cases h
  | cons c text ih =>
    rw [List.cons_append, hasAggregateCall, Bool.or_eq_true, Bool.and_eq_true,
      startsAggregateCall_eq, List.any_eq_true] at h
    rw [hasAggregateCall, Bool.or_eq_true, Bool.and_eq_true, startsAggregateCall_eq,
      List.any_eq_true]
    refine h.imp (And.imp_right ?_) ih
    rintro ⟨name, hname, hcompletes⟩
    exact ⟨name, hname, @completes_of_append _ (c :: text) after hafter hcompletes⟩

/-! ## Parts that keep calls apart -/

/-- Whether reading on for the rest of a name fails within a text, whatever follows it. -/
def stops : (name text : List Char) → Bool
  | _, [] => false
  | [], c :: text => if isBlank c then stops [] text else c != '('
  | n :: name, c :: text => foldCase c != n || stops name text

/-- Whether no call begins in a text, whatever follows it; `inWord` tells whether the character
before it belongs to a word, and `endsInWord` whether its last one does. -/
def isQuiet (inWord endsInWord : Bool) : List Char → Bool
  | [] => inWord == endsInWord
  | c :: text =>
    (inWord || aggregateNames.all fun name => stops name.toList (c :: text)) &&
      isQuiet (isWordChar c) endsInWord text

/-- What may be left to read of an aggregate's name. -/
def nameEnds : List (List Char) :=
  aggregateNames.flatMap fun name => name.toList.tails

/-- Whether no call begins or ends in a text or reaches over it, whatever stands around it. -/
def isInert (endsInWord : Bool) (text : List Char) : Bool :=
  nameEnds.all (stops · text) && isQuiet false endsInWord text && isQuiet true endsInWord text

/-- The calls before a text and those after it are found apart. -/
def Inert (endsInWord : Bool) (text : List Char) : Prop :=
  ∀ inWord before after, hasAggregateCall inWord (before ++ (text ++ after)) =
    (hasAggregateCall inWord before || hasAggregateCall endsInWord after)

theorem completes_of_stops {name text : List Char} (h : stops name text = true)
    (after : List Char) : completes name (text ++ after) = false := by
  induction text generalizing name with
  | nil => cases name <;> cases h
  | cons c text ih =>
    cases name with
    | nil =>
      rw [List.cons_append, completes_nil_cons]
      rw [stops] at h
      by_cases hc : isBlank c = true
      · rw [if_pos hc] at h ⊢
        exact ih h
      · rw [if_neg hc] at h ⊢
        exact beq_eq_false_iff_ne.2 (bne_iff_ne.1 h)
    | cons n name =>
      rw [List.cons_append, completes_cons_cons]
      rw [stops, Bool.or_eq_true] at h
      rcases h with h | h
      · simp [beq_eq_false_iff_ne.2 (bne_iff_ne.1 h)]
      · rw [ih h, Bool.and_false]

theorem hasAggregateCall_of_isQuiet {inWord endsInWord : Bool} {text : List Char}
    (h : isQuiet inWord endsInWord text = true) (after : List Char) :
    hasAggregateCall inWord (text ++ after) = hasAggregateCall endsInWord after := by
  induction text generalizing inWord with
  | nil => rw [eq_of_beq h, List.nil_append]
  | cons c text ih =>
    rw [isQuiet, Bool.and_eq_true, Bool.or_eq_true] at h
    obtain ⟨hstart, hrest⟩ := h
    have hnone : (!inWord && startsAggregateCall (c :: (text ++ after))) = false := by
      rcases hstart with rfl | hstart
      · rfl
      · rw [Bool.and_eq_false_iff, startsAggregateCall_eq, List.any_eq_false]
        exact .inr fun name hname =>
          Bool.eq_false_iff.1 (completes_of_stops (List.all_eq_true.1 hstart name hname) after)
    rw [List.cons_append, hasAggregateCall, hnone, Bool.false_or, ih hrest]

theorem mem_nameEnds_of_cons {n : Char} {name : List Char} (h : n :: name ∈ nameEnds) :
    name ∈ nameEnds := by
  obtain ⟨whole, hwhole, hsuffix⟩ := List.mem_flatMap.1 h
  refine List.mem_flatMap.2 ⟨whole, hwhole, ?_⟩
  rw [List.mem_tails] at hsuffix ⊢
  exact (List.suffix_cons n name).trans hsuffix

/-- A name begun before a text that stops every name is completed before it. -/
theorem completes_append_of_stops {text : List Char}
    (h : ∀ name ∈ nameEnds, stops name text = true) (before after : List Char) {name : List Char}
    (hname : name ∈ nameEnds) :
    completes name (before ++ (text ++ after)) = completes name before := by
  induction before generalizing name with
  | nil => rw [List.nil_append, completes_of_stops (h name hname), completes_empty]
  | cons c before ih =>
    cases name with
    | nil => rw [List.cons_append, completes_nil_cons, completes_nil_cons, ih hname]
    | cons n name =>
      rw [List.cons_append, completes_cons_cons, completes_cons_cons,
        ih (mem_nameEnds_of_cons hname)]

theorem inert_of_isInert {endsInWord : Bool} {text : List Char}
    (h : isInert endsInWord text = true) : Inert endsInWord text := by
  rw [isInert, Bool.and_eq_true, Bool.and_eq_true, List.all_eq_true] at h
  obtain ⟨⟨hstops, hfalse⟩, htrue⟩ := h
  intro inWord before after
  induction before generalizing inWord with
  | nil =>
    have hquiet : isQuiet inWord endsInWord text = true := by
      cases inWord
      · exact hfalse
      · exact htrue
    rw [List.nil_append, hasAggregateCall_of_isQuiet hquiet, hasAggregateCall, Bool.false_or]
  | cons c before ih =>
    -- a name that is begun before the text is not read on in it
    have hstart : startsAggregateCall (c :: (before ++ (text ++ after))) =
        startsAggregateCall (c :: before) := by
      rw [startsAggregateCall_eq, startsAggregateCall_eq, Bool.eq_iff_iff, List.any_eq_true,
        List.any_eq_true]
      refine exists_congr fun name => and_congr_right fun hname => ?_
      have hmem : name.toList ∈ nameEnds :=
        List.mem_flatMap.2 ⟨name, hname, (List.mem_tails ..).2 (List.suffix_refl _)⟩
      rw [← List.cons_append, completes_append_of_stops hstops (c :: before) after hmem]
    rw [List.cons_append, hasAggregateCall, hasAggregateCall, hstart, ih, Bool.or_assoc]

theorem Inert.skip {endsInWord : Bool} {text : List Char} (h : Inert endsInWord text)
    (inWord : Bool) (after : List Char) :
    hasAggregateCall inWord (text ++ after) = hasAggregateCall endsInWord after :=
  h inWord [] after

/-! ## Quotes -/

theorem inert_delimiters (d : Dialect) :
    Inert false [d.nameDelimiters.1] ∧ Inert false [d.nameDelimiters.2] := by
  constructor <;> refine inert_of_isInert ?_ <;> cases d <;> decide

/-- Delimiters keep calls apart, so writing one twice changes nothing. -/
theorem hasAggregateCall_doubled {closing : Char} (h : Inert false [closing]) (text : List Char)
    (inWord : Bool) (before : List Char) :
    hasAggregateCall inWord (before ++ doubled closing text) =
      hasAggregateCall inWord (before ++ text) := by
  induction text generalizing inWord before with
  | nil => rfl
  | cons c text ih =>
    rw [doubled]
    split
    · rename_i hc
      rw [eq_of_beq hc]
      calc hasAggregateCall inWord (before ++ closing :: closing :: doubled closing text)
          = (hasAggregateCall inWord before ||
              hasAggregateCall false (closing :: doubled closing text)) := h inWord before _
        _ = (hasAggregateCall inWord before || hasAggregateCall false (doubled closing text)) :=
          congrArg (_ || ·) (h.skip false _)
        _ = (hasAggregateCall inWord before || hasAggregateCall false text) :=
          congrArg (_ || ·) (ih false [])
        _ = hasAggregateCall inWord (before ++ closing :: text) := (h inWord before _).symm
    · rw [List.append_cons, ih, ← List.append_cons]

/-- What is quoted is looked at for itself. -/
theorem hasAggregateCall_enclose {opening closing : Char} (hopen : Inert false [opening])
    (hclose : Inert false [closing]) (s : String) (inWord : Bool) (before after : List Char) :
    hasAggregateCall inWord (before ++ ((enclose opening closing s).toList ++ after)) =
      (hasAggregateCall inWord before || hasAggregateCall false s.toList ||
        hasAggregateCall false after) := by
  have htext : (enclose opening closing s).toList ++ after =
      [opening] ++ (doubled closing s.toList ++ ([closing] ++ after)) := by
    simp [enclose]
  have hdoubled : hasAggregateCall false (doubled closing s.toList) =
      hasAggregateCall false s.toList := hasAggregateCall_doubled hclose s.toList false []
  rw [htext, hopen, hclose, hdoubled, Bool.or_assoc]

theorem hasAggregateCall_quoteName (d : Dialect) (name : String) (inWord : Bool)
    (before after : List Char) :
    hasAggregateCall inWord (before ++ ((d.quoteName name).toList ++ after)) =
      (hasAggregateCall inWord before || hasAggregateCall false name.toList ||
        hasAggregateCall false after) :=
  hasAggregateCall_enclose (inert_delimiters d).1 (inert_delimiters d).2 name inWord before after

/-! ## Names that fit a dialect -/

theorem paren_not_mem_short (text : String) : '(' ∉ (Digest.short text).toList := by
  have hdigit : ∀ n < 16, Nat.digitChar n ≠ '(' := by decide
  obtain ⟨w, hw⟩ := Digest.short_eq text
  rw [hw, String.toList_ofList]
  intro hmem
  obtain ⟨i, -, hi⟩ := List.mem_map.1 hmem
  exact hdigit _ (Nat.mod_lt _ (by decide)) hi

theorem paren_not_mem_fitName {name : String} (h : '(' ∉ name.toList) (d : Dialect) :
    '(' ∉ (fitName d name).toList := by
  unfold fitName
  split
  · exact h
  · split
    · exact h
    · have hmark : '(' ∉ "_".toList := by decide
      rw [String.toList_append, String.toList_append, String.toList_ofList, List.mem_append,
        List.mem_append, not_or, not_or]
      exact ⟨⟨fun hmem => h ((takeBytes_isPrefix _ _).subset hmem), hmark⟩, paren_not_mem_short name⟩

/-- A shortened name calls only what the whole name does. -/
theorem hasAggregateCall_of_fitName {d : Dialect} {name : String}
    (h : hasAggregateCall false (fitName d name).toList = true) :
    hasAggregateCall false name.toList = true := by
  unfold fitName at h
  split at h
  · exact h
  · split at h
    · exact h
    · have hmark : '(' ∉ "_".toList := by decide
      rw [String.toList_append, String.toList_append, String.toList_ofList] at h
      obtain ⟨rest, hrest⟩ := takeBytes_isPrefix (_ - 9) name.toList
      rw [← hrest]
      exact hasAggregateCall_append (hasAggregateCall_of_append hmark
        (hasAggregateCall_of_append (paren_not_mem_short name) h)) rest

/-! ## Truncations -/

/-- The text before, between and after the places of a value that stands in it once or twice. -/
structure Surround where
  first : String
  between : Option String := none
  last : String

namespace Surround

/-- The text with the value in its places. -/
def fill (s : Surround) (x : String) : String :=
  match s.between with
  | none => s.first ++ x ++ s.last
  | some text => s.first ++ x ++ text ++ x ++ s.last

/-- The text with more before it. -/
def preceded (opening : String) (s : Surround) : Surround :=
  { s with first := opening ++ s.first }

/-- The text with more after it. -/
def followed (s : Surround) (closing : String) : Surround :=
  { s with last := s.last ++ closing }

theorem append_fill {s : Surround} {x text : String} (h : text = s.fill x) (opening : String) :
    opening ++ text = (s.preceded opening).fill x := by
  obtain ⟨first, _ | between, last⟩ := s <;> simp [h, fill, preceded, String.append_assoc]

theorem fill_append {s : Surround} {x text : String} (h : text = s.fill x) (closing : String) :
    text ++ closing = (s.followed closing).fill x := by
  obtain ⟨first, _ | between, last⟩ := s <;> simp [h, fill, followed, String.append_assoc]

/-- Whether every part of the text keeps calls apart. -/
def isInert (endsInWord : Bool) (s : Surround) : Bool :=
  Sql.isInert false s.first.toList && s.between.all (Sql.isInert false ·.toList) &&
    Sql.isInert endsInWord s.last.toList

theorem hasAggregateCall_fill {s : Surround} {endsInWord : Bool}
    (h : s.isInert endsInWord = true) (x : String) (inWord : Bool) (before after : List Char) :
    hasAggregateCall inWord (before ++ ((s.fill x).toList ++ after)) =
      (hasAggregateCall inWord before || hasAggregateCall false x.toList ||
        hasAggregateCall endsInWord after) := by
  obtain ⟨first, between, last⟩ := s
  rw [isInert, Bool.and_eq_true, Bool.and_eq_true] at h
  obtain ⟨⟨hfirst, hbetween⟩, hlast⟩ := h
  replace hfirst := inert_of_isInert hfirst
  replace hlast := inert_of_isInert hlast
  cases between with
  | none =>
    simp only [fill, String.toList_append, List.append_assoc]
    rw [hfirst, hlast, Bool.or_assoc]
  | some text =>
    have htext : Inert false text.toList := inert_of_isInert hbetween
    simp only [fill, String.toList_append, List.append_assoc]
    rw [hfirst, htext, hlast, ← Bool.or_assoc (hasAggregateCall false x.toList), Bool.or_self,
      Bool.or_assoc]

end Surround

namespace Truncation

/-- The text around the value. -/
def surround : Truncation → Surround
  | value => ⟨"", none, ""⟩
  | dateTrunc unit t => (t.surround.preceded ("DATE_TRUNC('" ++ unit ++ "', ")).followed ")"
  | plusDay t => t.surround.followed " + INTERVAL '1 day'"
  | minusDay t => t.surround.followed " - INTERVAL '1 day'"
  | dateAdd days t =>
    (t.surround.preceded ("DATEADD(day, " ++ toString days ++ ", ")).followed ")"
  | date => ⟨"DATE(", none, ")"⟩
  | castDate => ⟨"CAST(", none, " AS DATE)"⟩
  | dateFormat format => ((Surround.mk "DATE_FORMAT(" none ", '").followed format).followed "')"
  | strftime format => ⟨"strftime('" ++ format ++ "', ", none, ")"⟩
  | backToMonday => ⟨"DATE_SUB(DATE(", some "), INTERVAL WEEKDAY(", ") DAY)"⟩
  | backToSunday => ⟨"DATE_SUB(DATE(", some "), INTERVAL DAYOFWEEK(", ") - 1 DAY)"⟩
  | quarterFromYear =>
    ⟨"MAKEDATE(YEAR(", some "), 1) + INTERVAL QUARTER(", ") - 1 QUARTER"⟩
  | moved modifiers =>
    ⟨"date(", none, modifiers.foldl (fun s m => s ++ ", '" ++ m ++ "'") "" ++ ")"⟩
  | unitsFromZero unit =>
    ⟨"DATEADD(" ++ unit ++ ", DATEDIFF(" ++ unit ++ ", 0, ", none, "), 0)"⟩
  | backByRemainder since =>
    ⟨"DATEADD(DAY, -(DATEDIFF(DAY, '" ++ since ++ "', ", some ") % 7), CAST(", " AS DATE))"⟩
  | monthFromParts => ⟨"DATEFROMPARTS(YEAR(", some "), MONTH(", "), 1)"⟩
  | quarterFromParts =>
    ⟨"DATEFROMPARTS(YEAR(", some "), (DATEPART(QUARTER, ", ") - 1) * 3 + 1, 1)"⟩
  | yearFromParts => ⟨"DATEFROMPARTS(YEAR(", none, "), 1, 1)"⟩
  | quarterPrinted =>
    ⟨"printf('%04d-%02d-01', CAST(strftime('%Y', ", some ") AS INTEGER), ((CAST(strftime('%m', ",
      ") AS INTEGER) - 1) / 3) * 3 + 1)"⟩

theorem render_eq_fill (t : Truncation) (x : String) : t.render x = t.surround.fill x := by
  induction t with
  | value => exact (String.append_empty.trans String.empty_append).symm
  | dateTrunc unit t ih => exact Surround.fill_append (Surround.append_fill ih _) ")"
  | plusDay t ih => exact Surround.fill_append ih _
  | minusDay t ih => exact Surround.fill_append ih _
  | dateAdd days t ih => exact Surround.fill_append (Surround.append_fill ih _) ")"
  | dateFormat format =>
    have htext : "DATE_FORMAT(" ++ x ++ ", '" = Surround.fill ⟨"DATE_FORMAT(", none, ", '"⟩ x := rfl
    exact Surround.fill_append (Surround.fill_append htext format) "')"
  | moved modifiers => exact String.append_assoc ..
  | _ => rfl

/-- Around a truncated value nothing is called, and only one text ends in a word. -/
theorem isInert_surround {d : Dialect} {g : Grain} {t : Truncation} (h : of? d g = some t) :
    t.surround.isInert (d == .mysql && g == .quarter) = true := by
  have hall : ∀ d g, ((of? d g).all fun t =>
      t.surround.isInert (d == .mysql && g == .quarter)) = true := by
    intro d g
    cases d <;> cases g <;> decide +kernel
  have := hall d g
  rwa [h] at this

end Truncation

/-! ## Texts that hold calls together -/

/-- A text does not begin with a character of a word. -/
def Clear (text : List Char) : Prop :=
  ∀ c ∈ text.head?, isWordChar c = false

theorem isWordChar_of_foldCase {c : Char} (h : (foldCase c).isLower = true) :
    isWordChar c = true := by
  unfold foldCase at h
  split at h
  · rename_i hlong
    obtain rfl : c = 'ſ' := Char.toNat_inj.1 (eq_of_beq hlong)
    decide +kernel
  · have hletter : c.isUpper = true ∨ c.isLower = true := by
      unfold Char.toLower at h
      split at h
      · rename_i hupper
        exact .inl (decide_eq_true hupper)
      · exact .inr h
    have hascii : c.toNat < 0x80 := by
      rcases hletter with hupper | hlower
      · have hle := (of_decide_eq_true hupper).2
        exact Nat.lt_of_le_of_lt (UInt32.le_iff_toNat_le.1 hle) (by decide)
      · have hle := of_decide_eq_true (Bool.and_eq_true_iff.1 hlower).2
        exact Nat.lt_of_le_of_lt (UInt32.le_iff_toNat_le.1 hle) (by decide)
    have halpha : c.isAlpha = true := Bool.or_eq_true_iff.2 hletter
    have halphanum : c.isAlphanum = true := Bool.or_eq_true_iff.2 (.inl halpha)
    rw [isWordChar, if_pos hascii, halphanum, Bool.true_or]

theorem startsAggregateCall_of_clear {text : List Char} (h : Clear text) :
    startsAggregateCall text = false := by
  have hlower : ∀ name ∈ aggregateNames, name.toList.head?.any Char.isLower = true := by decide
  rw [startsAggregateCall_eq, List.any_eq_false]
  intro name hname hcompletes
  obtain ⟨n, hn, hletter⟩ := (Option.any_eq_true ..).1 (hlower name hname)
  obtain ⟨rest, hrest⟩ := List.head?_eq_some_iff.1 hn
  rw [hrest] at hcompletes
  cases text with
  | nil => simp at hcompletes
  | cons c text =>
    rw [completes_cons_cons, Bool.and_eq_true, beq_iff_eq] at hcompletes
    have hword := isWordChar_of_foldCase (hcompletes.1 ▸ hletter)
    rw [h c rfl] at hword
    cases hword

/-- What begins no word is read alike behind a word and elsewhere. -/
theorem hasAggregateCall_of_clear {text : List Char} (h : Clear text) (inWord : Bool) :
    hasAggregateCall inWord text = hasAggregateCall false text := by
  cases text with
  | nil => rfl
  | cons c text =>
    rw [hasAggregateCall, hasAggregateCall, startsAggregateCall_of_clear h, Bool.and_false,
      Bool.and_false]

theorem hasAggregateCall_of_inWord {inWord : Bool} {text : List Char}
    (h : hasAggregateCall inWord text = true) : hasAggregateCall false text = true := by
  cases text with
  | nil => cases h
  | cons c text =>
    rw [hasAggregateCall, Bool.or_eq_true, Bool.and_eq_true] at h
    rw [hasAggregateCall, Bool.or_eq_true, Bool.and_eq_true]
    exact h.imp_left fun hstart => ⟨rfl, hstart.2⟩

/-- A text that calls an aggregate still does with `y` in the place of `x`. If this is not so
`anywhere`, it is where no character of a word follows. -/
def KeepsCalls (anywhere : Bool) (x y : String) : Prop :=
  ∀ before after, (anywhere = false → Clear after) →
    hasAggregateCall false (before ++ (x.toList ++ after)) = true →
      hasAggregateCall false (before ++ (y.toList ++ after)) = true

namespace KeepsCalls

variable {anywhere here there : Bool} {x y x' y' : String}

theorem refl (anywhere : Bool) (x : String) : KeepsCalls anywhere x x :=
  fun _ _ _ h => h

theorem mono (h : KeepsCalls there x y) (hwhere : here = true → there = true) :
    KeepsCalls here x y := by
  intro before after hclear
  refine h before after fun hthere => hclear ?_
  exact Bool.eq_false_iff.2 fun hhere => Bool.eq_false_iff.1 hthere (hwhere hhere)

theorem embedsAggregate (h : KeepsCalls anywhere x y) (hx : embedsAggregate x = true) :
    embedsAggregate y = true := by
  have hclear : Clear [] := fun c hc => by cases hc
  have hkeeps := h [] [] fun _ => hclear
  simp only [List.nil_append, List.append_nil] at hkeeps
  exact hkeeps hx

/-- Of two texts in a row the second is what follows the first. -/
theorem append (h : KeepsCalls there x y) (h' : KeepsCalls here x' y')
    (hclear : there = false → ∀ after, (here = false → Clear after) → Clear (x'.toList ++ after)) :
    KeepsCalls here (x ++ x') (y ++ y') := by
  intro before after hafter hcall
  rw [String.toList_append, List.append_assoc] at hcall ⊢
  have hfirst := h before _ (fun hthere => hclear hthere after hafter) hcall
  rw [← List.append_assoc] at hfirst ⊢
  exact h' _ after hafter hfirst

/-- A quoted name may stand for another that calls nothing, or whose calls it makes too. -/
theorem quoted (anywhere : Bool) (d d' : Dialect) {label label' : String} (name : String)
    (h : hasAggregateCall false label.toList = true → hasAggregateCall false label'.toList = true) :
    KeepsCalls anywhere (d.quoteName label ++ "." ++ d.quoteName name)
      (d'.quoteName label' ++ "." ++ d'.quoteName name) := by
  have hdot : hasAggregateCall false ".".toList = false := by decide
  intro before after _ hcall
  simp only [String.toList_append, List.append_assoc] at hcall ⊢
  rw [hasAggregateCall_quoteName, hasAggregateCall_quoteName, hdot, Bool.false_or] at hcall
  rw [hasAggregateCall_quoteName, hasAggregateCall_quoteName, hdot, Bool.false_or]
  simp only [Bool.or_eq_true] at hcall ⊢
  exact hcall.imp_left (Or.imp_right h)

theorem boolLiteral (d d' : Dialect) (b : Bool) :
    KeepsCalls anywhere (d.boolLiteral b) (d'.boolLiteral b) := by
  have hinert : ∀ d : Dialect, Inert true (d.boolLiteral b).toList := by
    intro d
    refine inert_of_isInert ?_
    cases d <;> cases b <;> decide
  intro before after _ hcall
  rwa [hinert d', ← hinert d]

/-- One dialect's truncation may stand for another's. MySQL's to the quarter ends in a word, so no
character of a word may follow it. -/
theorem truncated {d d' : Dialect} {g : Grain} {sql sql' : String} (h : KeepsCalls there x y)
    (hx : truncate? d g x = some sql) (hy : truncate? d' g y = some sql')
    (hwhere : here = true → d' = .mysql → g ≠ .quarter) : KeepsCalls here sql sql' := by
  obtain ⟨t, ht, rfl⟩ := Option.map_eq_some_iff.1 hx
  obtain ⟨t', ht', rfl⟩ := Option.map_eq_some_iff.1 hy
  intro before after hclear hcall
  rw [Truncation.render_eq_fill,
    Surround.hasAggregateCall_fill (Truncation.isInert_surround ht)] at hcall
  rw [Truncation.render_eq_fill, Surround.hasAggregateCall_fill (Truncation.isInert_surround ht')]
  rw [Bool.or_eq_true, Bool.or_eq_true] at hcall ⊢
  refine hcall.imp (Or.imp_right h.embedsAggregate) fun hafter => ?_
  replace hafter := hasAggregateCall_of_inWord hafter
  cases here with
  | false => rwa [hasAggregateCall_of_clear (hclear rfl)]
  | true =>
    have hplain : (d' == .mysql && g == .quarter) = false := by
      rw [Bool.and_eq_false_iff, beq_eq_false_iff_ne, beq_eq_false_iff_ne]
      exact or_iff_not_imp_left.2 fun hd => hwhere rfl (not_not.1 hd)
    rwa [hplain]

end KeepsCalls

end Rollup.Sql
