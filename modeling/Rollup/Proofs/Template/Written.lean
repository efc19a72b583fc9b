/-
Templates written out. Each segment is written as a placeholder, with blanks just inside its braces
as one likes, and a literal as it is. Reading what was written gives the segments back if literals
hold no braces and do not stand side by side, names are identifiers, and a fixed value has nothing
that ends the placeholder, the attribute or the bracket group it stands in.
-/
import Mathlib.Data.List.Chain
import Rollup.Proofs.Model.Arguments
import Rollup.Proofs.Outcome
import Rollup.Proofs.Template.Helper

namespace Rollup

open Text

/-! ## Writing -/

/-- Blanks that do not break the line. -/
structure Padding where
  chars : List Char
  blank : Blank chars
  line : '\n' ∉ chars

/-- The name of the column that is referred to. -/
def Target.name : Target → String
  | logical name | physical name => name

/-- A reference as it is written, with a sign before the name of a database column. -/
def Target.written : Target → String
  | logical name => name
  | physical name => "$" ++ name

namespace Template

/-- A column with its fixed arguments in brackets. -/
def columnText (column : String) (values : Arguments) : String :=
  column ++ join "" (values.entries.map fun e => "[" ++ e.1 ++ ":" ++ e.2 ++ "]")

/-- The attributes of a helper. The one for the joins may be missing. -/
def helperText (path : Option (List String)) (column : String) (values : Arguments) : String :=
  (path.elim "" fun joins => "from='" ++ join "." joins ++ "' ") ++
    "column='" ++ columnText column values ++ "'"

end Template

namespace Segment

/-- Whether a segment is literal text. -/
def isLiteral : Segment → Bool
  | literal _ => true
  | _ => false

/-- A literal's text, or what stands between the braces. -/
def text : Segment → String
  | literal text => text
  | reference joins target => join "." (joins ++ [target.written])
  | pinned joins column values =>
    "sql " ++ Template.helperText (if joins.isEmpty then none else some joins) column values
  | columnArgument name => "$$column.args." ++ name
  | tableArgument name => "$$table.args." ++ name
  | columnBase => "$$column.expr"

theorem text_literal (text : String) : (literal text).text = text := rfl

theorem text_reference (joins : List String) (target : Target) :
    (reference joins target).text = join "." (joins ++ [target.written]) := rfl

theorem text_pinned (joins : List String) (column : String) (values : Arguments) :
    (pinned joins column values).text =
      "sql " ++ Template.helperText (if joins.isEmpty then none else some joins) column values := rfl

theorem text_columnArgument (name : String) :
    (columnArgument name).text = "$$column.args." ++ name := rfl

theorem text_tableArgument (name : String) :
    (tableArgument name).text = "$$table.args." ++ name := rfl

theorem text_columnBase : columnBase.text = "$$column.expr" := rfl

/-- ASCII letters, digits and underscores, no digit first. -/
def Named (name : String) : Prop :=
  isIdentifier name.toList = true

/-- A value that can be fixed: nothing in it ends the group, the attribute or the placeholder, and
no blanks stand around it. -/
structure Fixable (value : String) : Prop where
  quote : '\'' ∉ value.toList
  bracket : ']' ∉ value.toList
  brace : '}' ∉ value.toList
  line : '\n' ∉ value.toList
  trimmed : trimChars value.toList = value.toList

/-- A segment that can be written. -/
def Plain : Segment → Prop
  | literal text => text ≠ "" ∧ '{' ∉ text.toList ∧ '}' ∉ text.toList
  | reference joins target => (∀ join ∈ joins, Named join) ∧ Named target.name
  | pinned joins column values => (∀ join ∈ joins, Named join) ∧ Named column ∧
      ∀ e ∈ values.entries, Named e.1 ∧ Fixable e.2
  | columnArgument name | tableArgument name => Named name
  | columnBase => True

instance : DecidablePred Named :=
  fun name => inferInstanceAs (Decidable (isIdentifier name.toList = true))

instance : DecidablePred Fixable := fun value =>
  decidable_of_iff ('\'' ∉ value.toList ∧ ']' ∉ value.toList ∧ '}' ∉ value.toList ∧
      '\n' ∉ value.toList ∧ trimChars value.toList = value.toList)
    ⟨fun h => ⟨h.1, h.2.1, h.2.2.1, h.2.2.2.1, h.2.2.2.2⟩,
      fun h => ⟨h.quote, h.bracket, h.brace, h.line, h.trimmed⟩⟩

instance : DecidablePred Plain
  | literal text => inferInstanceAs (Decidable (text ≠ "" ∧ _ ∧ _))
  | reference joins _ => inferInstanceAs (Decidable ((∀ join ∈ joins, Named join) ∧ _))
  | pinned joins column values => inferInstanceAs (Decidable ((∀ join ∈ joins, Named join) ∧
      Named column ∧ ∀ e ∈ values.entries, Named e.1 ∧ Fixable e.2))
  | columnArgument name | tableArgument name => inferInstanceAs (Decidable (Named name))
  | columnBase => inferInstanceAs (Decidable True)

end Segment

namespace Template

/-- A segment with the blanks inside its braces. A literal has no braces, and nothing is put around
it. -/
structure Laid where
  segment : Segment
  before : Padding
  after : Padding

/-- A segment as it is written, in braces unless it is a literal. -/
def Laid.written (laid : Laid) : List Char :=
  if laid.segment.isLiteral then laid.segment.text.toList
  else ['{', '{'] ++ laid.before.chars ++ laid.segment.text.toList ++ laid.after.chars ++ ['}', '}']

/-- The text of a template, its segments laid one after the other. -/
def written (laid : List Laid) : String :=
  String.ofList (laid.flatMap Laid.written)

/-! ## Cutting -/

theorem untilClose?_append {body : List Char} (hbrace : '}' ∉ body) (hline : '\n' ∉ body)
    (rest : List Char) : untilClose? (body ++ '}' :: '}' :: rest) = some (body, rest) := by
  induction body with
  | nil => rfl
  | cons c body ih =>
    rw [List.mem_cons, not_or] at hbrace hline
    rw [List.cons_append, untilClose?, ih hbrace.2 hline.2]
    · rfl
    · intro rest heq
      exact absurd heq.symm hbrace.1
    · exact Ne.symm hline.1

theorem placeholder?_of_ne {c : Char} (h : c ≠ '{') (cs : List Char) :
    placeholder? (c :: cs) = none := by
  unfold placeholder?
  split
  · rename_i heq
    exact absurd (List.cons.inj heq).1 h
  · rfl

theorem piecesFrom_nil (done : List Char) : piecesFrom done [] = [.literal done.reverse] := by
  rw [piecesFrom]
  split
  · rename_i h
    cases h
  · rfl

theorem piecesFrom_literal {text : List Char} (h : '{' ∉ text) (done cs : List Char) :
    piecesFrom done (text ++ cs) = piecesFrom (text.reverse ++ done) cs := by
  induction text generalizing done with
  | nil => rfl
  | cons c text ih =>
    rw [List.mem_cons, not_or] at h
    have hplain := placeholder?_of_ne (Ne.symm h.1) (text ++ cs)
    rw [List.cons_append, piecesFrom]
    split
    · rename_i hfound
      rw [hplain] at hfound
      cases hfound
    · exact (ih h.2 (c :: done)).trans (by simp)

theorem piecesFrom_placeholder {body : List Char} (hbrace : '}' ∉ body) (hline : '\n' ∉ body)
    (done cs : List Char) :
    piecesFrom done ('{' :: '{' :: body ++ '}' :: '}' :: cs) =
      .literal done.reverse :: .body body :: piecesFrom [] cs := by
  have hcut : placeholder? ('{' :: '{' :: body ++ '}' :: '}' :: cs) = some (body, cs) :=
    untilClose?_append hbrace hline cs
  rw [piecesFrom]
  split
  · rename_i hfound
    rw [hcut] at hfound
    cases hfound
    rfl
  · rename_i hnone
    rw [hcut] at hnone
    cases hnone

/-! ## Placeholder bodies -/

section Bodies

variable {body : List Char}

theorem identifier_ok_iff {cs : List Char} {name : String} :
    identifier cs = .ok name ↔ isIdentifier cs = true ∧ name = String.ofList cs := by
  unfold identifier
  split
  · rename_i hcs
    rw [Except.ok.injEq]
    exact ⟨fun h => ⟨hcs, h.symm⟩, fun h => h.2.symm⟩
  · rename_i hcs
    constructor
    · intro h
      cases h
    · exact fun h => absurd h.1 hcs

theorem mapM_identifier_iff {parts : List (List Char)} {names : List String} :
    parts.mapM identifier = .ok names ↔
      (∀ part ∈ parts, isIdentifier part = true) ∧ names = parts.map String.ofList :=
  mapM_ok_iff fun _ _ _ => identifier_ok_iff

theorem identifier_ok {name : String} (h : Segment.Named name) :
    identifier name.toList = .ok name :=
  identifier_ok_iff.2 ⟨h, String.ofList_toList.symm⟩

theorem mapM_identifier {names : List String} (h : ∀ name ∈ names, Segment.Named name) :
    (names.map String.toList).mapM identifier = .ok names :=
  mapM_identifier_iff.2 ⟨List.forall_mem_map.2 h, by simp⟩

theorem readBody_columnArgument {name : String} (hname : Segment.Named name)
    (h : trimChars body = (Segment.columnArgument name).text.toList) :
    readBody body = .ok (.columnArgument name) := by
  rw [Segment.text_columnArgument, String.toList_append] at h
  simp only [readBody, h, afterChars?_append, identifier_ok hname]
  rfl

theorem readBody_tableArgument {name : String} (hname : Segment.Named name)
    (h : trimChars body = (Segment.tableArgument name).text.toList) :
    readBody body = .ok (.tableArgument name) := by
  rw [Segment.text_tableArgument, String.toList_append] at h
  have hother : afterChars? "$$column.args.".toList ("$$table.args.".toList ++ name.toList) =
      none := by
    simp [afterChars?]
  simp only [readBody, h, afterChars?_append, hother, identifier_ok hname]
  rfl

theorem readBody_columnBase (h : trimChars body = Segment.columnBase.text.toList) :
    readBody body = .ok .columnBase := by
  simp only [readBody, h, Segment.text_columnBase]
  decide

/-- What does not begin with two dollar signs is a helper or a reference. -/
theorem readBody_of_not_context (h : ∀ rest, trimChars body ≠ '$' :: '$' :: rest) :
    readBody body = match afterChars? "sql ".toList (trimChars body) with
      | some helper => readHelper helper
      | none => readReference (trimChars body) := by
  have hnone : ∀ more, afterChars? ('$' :: '$' :: more) (trimChars body) = none := by
    intro more
    rw [Option.eq_none_iff_forall_ne_some]
    intro rest hrest
    exact h _ (eq_append_of_afterChars? hrest)
  have hbase : (trimChars body == "$$column.expr".toList) = false :=
    beq_false_of_ne (h "column.expr".toList)
  have hcolumn : afterChars? "$$column.args.".toList (trimChars body) = none := hnone _
  have htable : afterChars? "$$table.args.".toList (trimChars body) = none := hnone _
  simp only [readBody, hcolumn, htable, hbase, hnone]
  rfl

end Bodies

/-! ## References -/

/-- The characters that references consist of. -/
def isReferenceChar (c : Char) : Bool :=
  c == '.' || c == '$' || isIdentChar c

theorem isReferenceChar_of_isIdentChar {c : Char} (h : isIdentChar c = true) :
    isReferenceChar c = true := by
  rw [isReferenceChar, h, Bool.or_true]

theorem isReferenceChar_of_mem {joins : List String} {target : Target}
    (hjoins : ∀ join ∈ joins, Segment.Named join) (htarget : Segment.Named target.name) :
    ∀ c ∈ (Segment.reference joins target).text.toList, isReferenceChar c = true := by
  have hname : ∀ {name : String}, Segment.Named name → ∀ c ∈ name.toList, isReferenceChar c = true :=
    fun h c hc => isReferenceChar_of_isIdentChar (isIdentChar_of_mem h hc)
  intro c hc
  obtain hdot | ⟨step, hstep, hc⟩ := mem_of_mem_join hc
  · rw [show c = '.' by simpa using hdot]
    rfl
  · rcases List.mem_append.1 hstep with hstep | hstep
    · exact hname (hjoins step hstep) c hc
    · rw [List.mem_singleton.1 hstep] at hc
      cases target with
      | logical name => exact hname htarget c hc
      | physical name =>
        rw [Target.written, String.toList_append, List.mem_append] at hc
        rcases hc with hc | hc
        · rw [show c = '$' by simpa using hc]
          rfl
        · exact hname htarget c hc

theorem text_reference_ne {joins : List String} {target : Target}
    (hjoins : ∀ join ∈ joins, Segment.Named join) (htarget : Segment.Named target.name)
    (rest : List Char) : (Segment.reference joins target).text.toList ≠ '$' :: '$' :: rest := by
  have hdollar : ∀ {name : String}, Segment.Named name → '$' ∉ name.toList := fun h =>
    not_mem_of_isIdentifier h (by decide)
  intro h
  cases joins with
  | nil =>
    cases target with
    | logical name =>
      have hname : name.toList = '$' :: '$' :: rest := h
      exact hdollar htarget (hname ▸ List.mem_cons_self)
    | physical name =>
      have hname : '$' :: name.toList = '$' :: '$' :: rest := by
        simpa [Segment.text_reference, Target.written, join] using h
      rw [List.cons.injEq] at hname
      exact hdollar htarget (hname.2 ▸ List.mem_cons_self)
  | cons first joins =>
    have hfirst := hjoins first List.mem_cons_self
    obtain ⟨more, htext⟩ : ∃ more, (Segment.reference (first :: joins) target).text.toList =
        first.toList ++ more := by
      cases joins with
      | nil => simp [Segment.text_reference, join]
      | cons second joins => simp [Segment.text_reference, join]
    obtain ⟨c, cs, hchars⟩ := List.exists_cons_of_ne_nil (ne_nil_of_isIdentifier hfirst)
    rw [htext, hchars, List.cons_append, List.cons.injEq] at h
    exact hdollar hfirst (hchars ▸ h.1 ▸ List.mem_cons_self)

theorem splitChars_text_reference {joins : List String} {target : Target}
    (hjoins : ∀ join ∈ joins, Segment.Named join) (htarget : Segment.Named target.name) :
    splitChars '.' (Segment.reference joins target).text.toList =
      joins.map String.toList ++ [target.written.toList] := by
  have hdot : ∀ {name : String}, Segment.Named name → '.' ∉ name.toList := fun h =>
    not_mem_of_isIdentifier h (by decide)
  have htargetDot : '.' ∉ target.written.toList := by
    cases target with
    | logical name => exact hdot htarget
    | physical name =>
      rw [Target.written, String.toList_append, List.mem_append, not_or]
      exact ⟨by decide, hdot htarget⟩
  have hnames : ∀ name ∈ joins ++ [target.written], '.' ∉ name.toList := by
    intro name hname
    rcases List.mem_append.1 hname with hname | hname
    · exact hdot (hjoins name hname)
    · rwa [List.mem_singleton.1 hname]
  rw [Segment.text_reference, splitChars_join rfl (by simp) hnames, List.map_append,
    List.map_singleton]

theorem readReference_text {joins : List String} {target : Target}
    (hjoins : ∀ join ∈ joins, Segment.Named join) (htarget : Segment.Named target.name) :
    readReference (Segment.reference joins target).text.toList = .ok (.reference joins target) := by
  simp only [readReference, splitChars_text_reference hjoins htarget, List.dropLast_concat,
    mapM_identifier hjoins, List.getLastD_concat]
  cases target with
  | physical name =>
    have hname : identifier name.toList = .ok name := identifier_ok htarget
    have hchars : (Target.physical name).written.toList = '$' :: name.toList := by
      simp [Target.written]
    rw [hchars]
    simp only [hname]
    rfl
  | logical name =>
    have hname : identifier name.toList = .ok name := identifier_ok htarget
    have hdollar : '$' ∉ name.toList := not_mem_of_isIdentifier htarget (by decide)
    simp only [Target.written]
    split
    · rename_i heq
      exact absurd (heq ▸ List.mem_cons_self) hdollar
    · rw [hname]
      rfl

/-! ## Helpers -/

section Helpers

variable {path : Option (List String)} {joins : List String} {column : String} {values : Arguments}

/-- The attributes as they are written. -/
def helperAttributesOf (path : Option (List String)) (column : String) (values : Arguments) :
    List Attribute :=
  let columnAttribute (gap : List Char) : Attribute :=
    { gap, name := "column".toList, value := (columnText column values).toList }
  match path with
  | none => [columnAttribute []]
  | some joins =>
    [{ name := "from".toList, value := (join "." joins).toList }, columnAttribute [' ']]

theorem toList_helperText (path : Option (List String)) (column : String) (values : Arguments) :
    (helperText path column values).toList =
      (helperAttributesOf path column values).flatMap Attribute.text := by
  cases path with
  | none => simp [helperText, helperAttributesOf, Attribute.text]
  | some joins => simp [helperText, helperAttributesOf, Attribute.text]

/-- The groups that fix the values. -/
def groupsOf (values : Arguments) : List (List Char) :=
  values.entries.map fun e => e.1.toList ++ ':' :: e.2.toList

theorem toList_columnText (column : String) (values : Arguments) :
    (columnText column values).toList = column.toList ++ (groupsOf values).flatMap bracketed := by
  simp [columnText, toList_join_empty, groupsOf, bracketed, List.flatMap_map]

/-! Columns. -/

theorem trimChars_columnText (hcolumn : Segment.Named column) (values : Arguments) :
    trimChars (columnText column values).toList = (columnText column values).toList := by
  have hnonblank : ∀ c ∈ column.toList, isBlank c = false := fun c hc =>
    isBlank_of_isIdentChar (isIdentChar_of_mem hcolumn hc)
  rw [toList_columnText]
  refine trimChars_of_ends (fun c hc => ?_) (fun c hc => ?_)
  · rw [List.head?_append_of_ne_nil _ (ne_nil_of_isIdentifier hcolumn)] at hc
    exact hnonblank c (List.mem_of_mem_head? hc)
  · rcases List.eq_nil_or_concat (groupsOf values) with hnil | ⟨groups, group, hgroups⟩
    · rw [hnil, List.flatMap_nil, List.append_nil] at hc
      exact hnonblank c (List.mem_of_mem_getLast? hc)
    · have htext : column.toList ++ (groups.concat group).flatMap bracketed =
          column.toList ++ groups.flatMap bracketed ++ '[' :: group ++ [']'] := by
        simp [bracketed]
      rw [hgroups, htext, List.getLast?_concat] at hc
      rw [← Option.some.inj hc]
      decide

section

variable (hcolumn : Segment.Named column)
  (hvalues : ∀ e ∈ values.entries, Segment.Named e.1 ∧ Segment.Fixable e.2)

include hvalues

theorem filterMap_pinnedIn?_groupsOf : (groupsOf values).filterMap pinnedIn? = values.entries := by
  have hpin : ∀ e ∈ values.entries, pinnedIn? (e.1.toList ++ ':' :: e.2.toList) = some e := by
    intro e he
    obtain ⟨hname, hvalue⟩ := hvalues e he
    refine pinnedIn?_of_pinnedHere? (pinnedHere?_eq_some_iff.2 ⟨e.2.toList, rfl, hname, ?_⟩)
    rw [hvalue.trimmed, String.ofList_toList]
  rw [groupsOf, List.filterMap_map]
  exact (List.filterMap_congr hpin).trans List.filterMap_some

theorem bracket_not_mem_groupsOf : ∀ group ∈ groupsOf values, ']' ∉ group := by
  intro group hgroup
  obtain ⟨e, he, rfl⟩ := List.mem_map.1 hgroup
  exact bracket_not_mem_group (hvalues e he).1 (hvalues e he).2.bracket

include hcolumn

theorem readPinnedColumn_columnText :
    readPinnedColumn (columnText column values).toList = .ok (column, values) := by
  refine readPinnedColumn_eq_ok_iff.2 ⟨groupsOf values, toList_columnText column values, hcolumn,
    bracket_not_mem_groupsOf hvalues, ?_⟩
  rw [filterMap_pinnedIn?_groupsOf hvalues, Arguments.ofList_entries]

theorem mem_columnText {c : Char} (hc : c ∈ (columnText column values).toList) :
    isIdentChar c = true ∨ c ∈ ['[', ':', ']'] ∨ ∃ e ∈ values.entries, c ∈ e.2.toList := by
  rw [toList_columnText, List.mem_append] at hc
  rcases hc with hc | hc
  · exact .inl (isIdentChar_of_mem hcolumn hc)
  · obtain ⟨group, hgroup, hc⟩ := List.mem_flatMap.1 hc
    obtain ⟨e, he, rfl⟩ := List.mem_map.1 hgroup
    simp only [bracketed, List.mem_append, List.mem_cons, List.not_mem_nil, or_false] at hc
    rcases hc with (rfl | hc | rfl | hc) | rfl
    · exact .inr (.inl (by decide))
    · exact .inl (isIdentChar_of_mem (hvalues e he).1 hc)
    · exact .inr (.inl (by decide))
    · exact .inr (.inr ⟨e, he, hc⟩)
    · exact .inr (.inl (by decide))

theorem quote_not_mem_columnText : '\'' ∉ (columnText column values).toList := by
  intro hmem
  obtain hident | hmark | ⟨e, he, hmem⟩ := mem_columnText hcolumn hvalues hmem
  · exact absurd hident (by decide)
  · exact absurd hmark (by decide)
  · exact (hvalues e he).2.quote hmem

end

/-! Joins. -/

section

variable (hjoins : ∀ join ∈ joins, Segment.Named join)

include hjoins

theorem mem_join_named {c : Char} (hc : c ∈ (join "." joins).toList) :
    isIdentChar c = true ∨ c = '.' := by
  obtain hdot | ⟨step, hstep, hc⟩ := mem_of_mem_join hc
  · exact .inr (by simpa using hdot)
  · exact .inl (isIdentChar_of_mem (hjoins step hstep) hc)

theorem trimChars_join : trimChars (join "." joins).toList = (join "." joins).toList := by
  have hnonblank : ∀ c ∈ (join "." joins).toList, isBlank c = false := by
    intro c hc
    rcases mem_join_named hjoins hc with hident | rfl
    · exact isBlank_of_isIdentChar hident
    · decide
  exact trimChars_of_ends (fun c hc => hnonblank c (List.mem_of_mem_head? hc))
    fun c hc => hnonblank c (List.mem_of_mem_getLast? hc)

theorem join_ne_nil (hne : joins ≠ []) : (join "." joins).toList ≠ [] := by
  obtain ⟨first, rest, rfl⟩ := List.exists_cons_of_ne_nil hne
  have hfirst := ne_nil_of_isIdentifier (hjoins first List.mem_cons_self)
  cases rest with
  | nil => exact hfirst
  | cons second rest => simp [join]

end

/-! Both together. -/

/-- The characters that helpers consist of besides the values. -/
def isHelperChar (c : Char) : Bool :=
  isIdentChar c || [' ', '.', '=', '\'', '[', ':', ']'].contains c

section

variable (hpath : ∀ joins ∈ path, ∀ join ∈ joins, Segment.Named join)
  (hcolumn : Segment.Named column)
  (hvalues : ∀ e ∈ values.entries, Segment.Named e.1 ∧ Segment.Fixable e.2)

include hpath hcolumn

theorem helperAttributes_helperAttributesOf (values : Arguments) :
    helperAttributes (none, none) ((helperAttributesOf path column values).map Attribute.content) =
      .ok (path.map fun joins => (join "." joins).toList,
        some (columnText column values).toList) := by
  cases path with
  | none =>
    simp [helperAttributesOf, Attribute.content, helperAttributes, trimChars_columnText hcolumn]
  | some joins =>
    simp [helperAttributesOf, Attribute.content, helperAttributes, trimChars_columnText hcolumn,
      trimChars_join (hpath joins rfl)]

include hvalues

theorem spaced_helperAttributesOf : ∀ a ∈ helperAttributesOf path column values, a.Spaced := by
  have hquote := quote_not_mem_columnText hcolumn hvalues
  cases path with
  | none =>
    intro a ha
    rw [List.mem_singleton.1 ha]
    exact Attribute.Closed.spaced ⟨blank_nil, blank_nil, hquote⟩ blank_nil (.inr rfl)
  | some joins =>
    have hjoinQuote : '\'' ∉ (join "." joins).toList := by
      intro hmem
      obtain hident | hdot := mem_join_named (hpath joins rfl) hmem
      · exact absurd hident (by decide)
      · cases hdot
    intro a ha
    rcases List.mem_cons.1 ha with rfl | ha
    · exact Attribute.Closed.spaced ⟨blank_nil, blank_nil, hjoinQuote⟩ blank_nil (.inl rfl)
    · rw [List.mem_singleton.1 ha]
      have hgap : Blank [' '] := by decide
      exact Attribute.Closed.spaced ⟨blank_nil, blank_nil, hquote⟩ hgap (.inr rfl)

theorem readHelper_helperText :
    readHelper (helperText path column values).toList =
      .ok (.pinned (path.getD []) column values) := by
  have hattributes : attributes ((helperText path column values).toList.length + 1) []
      (helperText path column values).toList =
        (helperAttributesOf path column values).map Attribute.content := by
    have hall := attributes_texts (spaced_helperAttributesOf hpath hcolumn hvalues) blank_nil
      (Nat.lt_succ_self _)
    rwa [List.append_nil, ← toList_helperText] at hall
  have hread := readPinnedColumn_columnText hcolumn hvalues
  simp only [readHelper, hattributes, helperAttributes_helperAttributesOf hpath hcolumn]
  cases path with
  | none =>
    show (readPinnedColumn _ >>= fun _ => _) = _
    rw [hread]
    rfl
  | some joins =>
    have hjoins := hpath joins rfl
    rw [Option.map_some]
    by_cases hne : joins = []
    · subst hne
      show (readPinnedColumn _ >>= fun _ => _) = _
      rw [hread]
      rfl
    · have hsplit : splitChars '.' (join "." joins).toList = joins.map String.toList :=
        splitChars_join rfl hne fun join hjoin =>
          not_mem_of_isIdentifier (hjoins join hjoin) (by decide)
      obtain ⟨c, cs, hchars⟩ := List.exists_cons_of_ne_nil (join_ne_nil hjoins hne)
      rw [hchars] at hsplit ⊢
      show ((splitChars '.' (c :: cs)).mapM identifier >>= fun _ => _) = _
      rw [hsplit, mapM_identifier hjoins]
      show (readPinnedColumn _ >>= fun _ => _) = _
      rw [hread]
      rfl

theorem mem_helperText {c : Char} (hc : c ∈ ("sql " ++ helperText path column values).toList) :
    isHelperChar c = true ∨ ∃ e ∈ values.entries, c ∈ e.2.toList := by
  have hliteral : ∀ {text : String}, text.toList.all isHelperChar = true → c ∈ text.toList →
      isHelperChar c = true ∨ ∃ e ∈ values.entries, c ∈ e.2.toList :=
    fun htext hc => .inl (List.all_eq_true.1 htext c hc)
  have hcolumnText : c ∈ (columnText column values).toList →
      isHelperChar c = true ∨ ∃ e ∈ values.entries, c ∈ e.2.toList := by
    intro hc
    obtain hident | hmark | hvalue := mem_columnText hcolumn hvalues hc
    · exact .inl (by rw [isHelperChar, hident, Bool.true_or])
    · have hmarks : ∀ d ∈ ['[', ':', ']'], isHelperChar d = true := List.all_eq_true.1 (by decide)
      exact .inl (hmarks c hmark)
    · exact .inr hvalue
  cases path with
  | none =>
    simp only [helperText, Option.elim_none, String.toList_append, List.mem_append] at hc
    rcases hc with hc | ((hc | hc) | hc) | hc
    · exact hliteral (by decide) hc
    · exact hliteral (by decide) hc
    · exact hliteral (by decide) hc
    · exact hcolumnText hc
    · exact hliteral (by decide) hc
  | some joins =>
    simp only [helperText, Option.elim_some, String.toList_append, List.mem_append] at hc
    rcases hc with hc | (((((hc | hc) | hc) | hc) | hc) | hc)
    · exact hliteral (by decide) hc
    · exact hliteral (by decide) hc
    · rcases mem_join_named (hpath joins rfl) hc with hident | rfl
      · exact .inl (by rw [isHelperChar, hident, Bool.true_or])
      · exact .inl rfl
    · exact hliteral (by decide) hc
    · exact hliteral (by decide) hc
    · exact hcolumnText hc
    · exact hliteral (by decide) hc

end

end Helpers

/-! ## Whole templates -/

/-- A text that can stand between braces and is found again in the blanks around it. -/
structure Enclosable (cs : List Char) : Prop where
  brace : '}' ∉ cs
  line : '\n' ∉ cs
  first : ∀ c ∈ cs.head?, isBlank c = false
  last : ∀ c ∈ cs.getLast?, isBlank c = false

theorem enclosable_of_forall {cs : List Char} (h : ∀ c ∈ cs, isReferenceChar c = true) :
    Enclosable cs := by
  have hblank : ∀ c ∈ cs, isBlank c = false := by
    intro c hc
    have hchar := h c hc
    simp only [isReferenceChar, Bool.or_eq_true, beq_iff_eq] at hchar
    rcases hchar with (rfl | rfl) | hident
    · decide
    · decide
    · exact isBlank_of_isIdentChar hident
  refine ⟨fun hc => ?_, fun hc => ?_, fun c hc => hblank c (List.mem_of_mem_head? hc),
    fun c hc => hblank c (List.mem_of_mem_getLast? hc)⟩
  · exact absurd (h _ hc) (by decide)
  · exact absurd (h _ hc) (by decide)

/-- A head of such characters in front of a name. -/
theorem enclosable_append {head name : String} (hhead : head.toList.all isReferenceChar = true)
    (hname : Segment.Named name) : Enclosable (head ++ name).toList := by
  refine enclosable_of_forall fun c hc => ?_
  rw [String.toList_append, List.mem_append] at hc
  rcases hc with hc | hc
  · exact List.all_eq_true.1 hhead c hc
  · exact isReferenceChar_of_isIdentChar (isIdentChar_of_mem hname hc)

theorem enclosable_helperText {path : Option (List String)} {column : String} {values : Arguments}
    (hpath : ∀ joins ∈ path, ∀ join ∈ joins, Segment.Named join) (hcolumn : Segment.Named column)
    (hvalues : ∀ e ∈ values.entries, Segment.Named e.1 ∧ Segment.Fixable e.2) :
    Enclosable ("sql " ++ helperText path column values).toList := by
  refine ⟨fun hc => ?_, fun hc => ?_, fun c hc => ?_, fun c hc => ?_⟩
  · obtain hchar | ⟨e, he, hc⟩ := mem_helperText hpath hcolumn hvalues hc
    · exact absurd hchar (by decide)
    · exact (hvalues e he).2.brace hc
  · obtain hchar | ⟨e, he, hc⟩ := mem_helperText hpath hcolumn hvalues hc
    · exact absurd hchar (by decide)
    · exact (hvalues e he).2.line hc
  · rw [String.toList_append] at hc
    cases hc
    decide
  · obtain ⟨front, hfront⟩ : ∃ front, ("sql " ++ helperText path column values).toList =
        front ++ ['\''] := by
      rw [helperText, ← String.append_assoc, String.toList_append]
      exact ⟨_, rfl⟩
    rw [hfront, List.getLast?_concat] at hc
    cases hc
    decide

theorem path_named {joins : List String} (h : ∀ join ∈ joins, Segment.Named join) :
    ∀ path ∈ (if joins.isEmpty then none else some joins), ∀ join ∈ path, Segment.Named join := by
  intro path hpath
  split at hpath
  · cases hpath
  · cases hpath
    exact h

theorem enclosable_of_plain {s : Segment} (h : s.Plain) (hs : s.isLiteral = false) :
    Enclosable s.text.toList := by
  cases s with
  | literal => cases hs
  | reference joins target => exact enclosable_of_forall (isReferenceChar_of_mem h.1 h.2)
  | pinned joins column values =>
    exact enclosable_helperText (path_named h.1) h.2.1 h.2.2
  | columnArgument name => exact enclosable_append (by decide) h
  | tableArgument name => exact enclosable_append (by decide) h
  | columnBase => exact enclosable_of_forall (List.all_eq_true.1 (by decide))

theorem readBody_of_plain {s : Segment} (h : s.Plain) (hs : s.isLiteral = false)
    {body : List Char} (hbody : trimChars body = s.text.toList) : readBody body = .ok s := by
  cases s with
  | literal => cases hs
  | reference joins target =>
    have hsql : afterChars? "sql ".toList (trimChars body) = none := by
      refine afterChars?_eq_none (c := ' ') (by decide) fun hmem => ?_
      exact absurd (isReferenceChar_of_mem h.1 h.2 ' ' (hbody ▸ hmem)) (by decide)
    rw [readBody_of_not_context (hbody ▸ text_reference_ne h.1 h.2), hsql]
    exact hbody ▸ readReference_text h.1 h.2
  | pinned joins column values =>
    rw [Segment.text_pinned, String.toList_append] at hbody
    rw [readBody_of_not_context, hbody, afterChars?_append]
    · refine (readHelper_helperText (path_named h.1) h.2.1 h.2.2).trans ?_
      cases joins with
      | nil => rfl
      | cons first joins => rfl
    · intro rest heq
      rw [hbody] at heq
      cases heq
  | columnArgument name => exact readBody_columnArgument h hbody
  | tableArgument name => exact readBody_tableArgument h hbody
  | columnBase => exact readBody_columnBase hbody

/-- The literal that has been begun, backwards. -/
def pending (done : List Char) : List Segment :=
  if done.isEmpty then [] else [.literal (String.ofList done.reverse)]

theorem readPiece_literal {done : List Char} (hopen : '{' ∉ done) (hclose : '}' ∉ done) :
    readPiece (.literal done.reverse) = .ok (pending done) := by
  have hnone : occursChars ['{', '{'] done.reverse = false ∧
      occursChars ['}', '}'] done.reverse = false :=
    ⟨occursChars_eq_false List.mem_cons_self (by simpa using hopen),
      occursChars_eq_false List.mem_cons_self (by simpa using hclose)⟩
  simp [readPiece, hnone, pending]

/-- What a first piece adds to what the rest gives. -/
theorem readPieces_cons {piece : Piece} {segments : List Segment}
    (h : readPiece piece = .ok segments) (pieces : List Piece) :
    ((piece :: pieces).mapM readPiece).map List.flatten =
      ((pieces.mapM readPiece).map List.flatten).map (segments ++ ·) := by
  rw [List.mapM_cons, h]
  cases pieces.mapM readPiece with
  | error e => rfl
  | ok rest => rfl

theorem readPiece_laid {l : Laid} (h : l.segment.Plain) (hkind : l.segment.isLiteral = false) :
    readPiece (.body (l.before.chars ++ l.segment.text.toList ++ l.after.chars)) =
      .ok [l.segment] := by
  have htext := enclosable_of_plain h hkind
  have htrim := trimChars_append l.before.blank l.after.blank htext.first htext.last
  rw [readPiece, readBody_of_plain h hkind htrim]
  rfl

theorem piecesFrom_laid {l : Laid} (h : l.segment.Plain) (hkind : l.segment.isLiteral = false)
    (done cs : List Char) :
    piecesFrom done (l.written ++ cs) = .literal done.reverse ::
      .body (l.before.chars ++ l.segment.text.toList ++ l.after.chars) :: piecesFrom [] cs := by
  have htext := enclosable_of_plain h hkind
  have hbrace : ∀ padding : Padding, '}' ∉ padding.chars := fun padding hmem =>
    absurd (padding.blank _ hmem) (by decide)
  have hwritten : l.written ++ cs = '{' :: '{' ::
      (l.before.chars ++ l.segment.text.toList ++ l.after.chars) ++ '}' :: '}' :: cs := by
    simp [Laid.written, hkind]
  rw [hwritten, piecesFrom_placeholder]
  · simp [htext.brace, hbrace]
  · simp [htext.line, l.before.line, l.after.line]

theorem readPieces_laid {laid : List Laid} (hplain : ∀ l ∈ laid, l.segment.Plain)
    (hapart : laid.IsChain fun l l' => l.segment.isLiteral = false ∨ l'.segment.isLiteral = false)
    {done : List Char} (hopen : '{' ∉ done) (hclose : '}' ∉ done)
    (hdone : done = [] ∨ ∀ l ∈ laid.head?, l.segment.isLiteral = false) :
    ((piecesFrom done (laid.flatMap Laid.written)).mapM readPiece).map List.flatten =
      .ok (pending done ++ laid.map Laid.segment) := by
  induction laid generalizing done with
  | nil =>
    rw [List.flatMap_nil, piecesFrom_nil, List.mapM_cons, readPiece_literal hopen hclose]
    rfl
  | cons l laid ih =>
    obtain ⟨hl, hlaid⟩ := List.forall_mem_cons.1 hplain
    obtain ⟨hnext, hrest⟩ := List.isChain_cons.1 hapart
    cases hkind : l.segment.isLiteral with
    | true =>
      -- nothing has been begun, so the literal is begun here
      have hnone : done = [] := hdone.resolve_right fun h => by
        rw [h l rfl] at hkind
        cases hkind
      cases hsegment : l.segment with
      | literal text =>
        rw [hsegment] at hl
        have hwritten : l.written = text.toList := by
          rw [Laid.written, if_pos hkind, hsegment, Segment.text_literal]
        have hliteral : pending text.toList.reverse = [.literal text] := by
          simp [pending, hl.1]
        rw [hnone, List.flatMap_cons, hwritten, piecesFrom_literal hl.2.1, List.append_nil,
          ih hlaid hrest (by simpa using hl.2.1) (by simpa using hl.2.2), hliteral, List.map_cons,
          hsegment]
        · rfl
        · exact .inr fun l' hl' => (hnext l' hl').resolve_left (by simp [hkind])
      | _ =>
        rw [hsegment] at hkind
        cases hkind
    | false =>
      rw [List.flatMap_cons, piecesFrom_laid hl hkind,
        readPieces_cons (readPiece_literal hopen hclose), readPieces_cons (readPiece_laid hl hkind),
        ih hlaid hrest List.not_mem_nil List.not_mem_nil (.inl rfl)]
      rfl

/-- A template that is written out is read as it was. -/
theorem parse_written {laid : List Laid} (hplain : ∀ l ∈ laid, l.segment.Plain)
    (hapart : laid.IsChain fun l l' => l.segment.isLiteral = false ∨ l'.segment.isLiteral = false) :
    parse (written laid) = .ok (laid.map Laid.segment) := by
  rw [parse, pieces, written, String.toList_ofList]
  exact readPieces_laid hplain hapart List.not_mem_nil List.not_mem_nil (.inl rfl)

/-- Every kind of segment, a literal that looks like a helper, and values that hold marks of the
syntax around them. -/
def scaledScore : List Laid :=
  let tight : Padding := ⟨[], by decide, by decide⟩
  let wide : Padding := ⟨['\t', ' '], by decide, by decide⟩
  [⟨.literal "sql column='c' ", tight, tight⟩,
    ⟨.reference [] (.physical "score"), wide, tight⟩,
    ⟨.reference ["club", "league"] (.logical "sql"), tight, wide⟩,
    ⟨.literal " * ", tight, tight⟩,
    ⟨.pinned ["club"] "scale" (.ofList [("by", "x = [y:z, \x7b"), ("unit", "")]), wide, wide⟩,
    ⟨.pinned [] "column" .empty, tight, tight⟩,
    ⟨.columnArgument "factor", tight, wide⟩,
    ⟨.tableArgument "season", wide, tight⟩,
    ⟨.columnBase, wide, wide⟩]

theorem parse_written_scaledScore :
    ((∀ l ∈ scaledScore, l.segment.Plain) ∧
      scaledScore.IsChain fun l l' => l.segment.isLiteral = false ∨ l'.segment.isLiteral = false) ∧
    parse (written scaledScore) = .ok (scaledScore.map Laid.segment) :=
  have hplain : ∀ l ∈ scaledScore, l.segment.Plain := by decide +kernel
  have hapart : scaledScore.IsChain fun l l' =>
      l.segment.isLiteral = false ∨ l'.segment.isLiteral = false := by decide +kernel
  ⟨⟨hplain, hapart⟩, parse_written hplain hapart⟩

end Template

end Rollup
