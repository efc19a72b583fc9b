/-
What is kept of a helper. Reading passes over what is no attribute, over bracket groups that fix
nothing, and over what a later attribute or group of the same name replaces. Whether anything has
been passed over can be told by counting: apart from blanks, a helper is at least as long as what is
kept of it, and it is just as long exactly if all of it is kept.
-/
import Mathlib.Algebra.GroupWithZero.Nat
import Rollup.Proofs.Template.Written

namespace Rollup.Template

open Text

/-! ## Ink -/

/-- How many characters of a text are not blank. -/
def ink (cs : List Char) : Nat :=
  cs.countP fun c => !isBlank c

@[simp]
theorem ink_nil : ink [] = 0 := rfl

@[simp]
theorem ink_append (cs ds : List Char) : ink (cs ++ ds) = ink cs + ink ds :=
  List.countP_append

theorem ink_cons {c : Char} (h : isBlank c = false) (cs : List Char) : ink (c :: cs) = ink cs + 1 :=
  List.countP_cons_of_pos (by simp [h])

theorem ink_eq_zero_iff {cs : List Char} : ink cs = 0 ↔ Blank cs := by
  simp [ink, Blank, List.countP_eq_zero]

theorem ink_trimChars (cs : List Char) : ink (trimChars cs) = ink cs := by
  obtain ⟨before, after, hbefore, hafter, hcs⟩ := exists_trimChars cs
  conv_rhs => rw [hcs]
  simp [ink_eq_zero_iff.2 hbefore, ink_eq_zero_iff.2 hafter]

/-! ## Attributes -/

/-- The ink of an attribute without what stands in front of it. -/
def attributeInk (content : List Char × List Char) : Nat :=
  ink content.1 + ink content.2 + 3

theorem ink_texts {as : List Attribute} (h : ∀ a ∈ as, a.Closed) (tail : List Char) :
    ink (as.flatMap Attribute.text ++ tail) =
      (as.map fun a => ink a.gap).sum + ((as.map Attribute.content).map attributeInk).sum +
        ink tail := by
  induction as with
  | nil => simp
  | cons a as ih =>
    obtain ⟨ha, has⟩ := List.forall_mem_cons.1 h
    have hequals : isBlank '=' = false := by decide
    have hquote : isBlank '\'' = false := by decide
    have htext : ink a.text = ink a.gap + attributeInk a.content := by
      simp [Attribute.text, Attribute.content, attributeInk, ink_cons hequals, ink_cons hquote,
        ink_eq_zero_iff.2 ha.left, ink_eq_zero_iff.2 ha.right]
      omega
    rw [List.flatMap_cons, List.append_assoc, ink_append, ih has, htext]
    simp only [List.map_cons, List.sum_cons]
    omega

theorem sum_gaps_eq_zero_iff {as : List Attribute} :
    (as.map fun a => ink a.gap).sum = 0 ↔ ∀ a ∈ as, Blank a.gap := by
  simp [List.sum_eq_zero_iff_forall_eq_nat, ink_eq_zero_iff]

theorem sum_map_eq_zero_iff {α : Type} {weight : α → Nat} (hpos : ∀ x, 0 < weight x) {xs : List α} :
    (xs.map weight).sum = 0 ↔ xs = [] := by
  cases xs with
  | nil => simp
  | cons x xs =>
    have := hpos x
    simp only [List.map_cons, List.sum_cons, reduceCtorEq, iff_false]
    omega

/-- The attributes found so far. -/
def foundList (found : Option (List Char) × Option (List Char)) : List (List Char × List Char) :=
  (found.1.map fun path => ("from".toList, path)).toList ++
    (found.2.map fun column => ("column".toList, column)).toList

/-- What is kept of an attribute: its name, and its value without the blanks around it. -/
def trimmed (content : List Char × List Char) : List Char × List Char :=
  (content.1, trimChars content.2)

theorem mem_names_foundList {found : Option (List Char) × Option (List Char)} {name : List Char} :
    name ∈ (foundList found).map Prod.fst ↔
      name = "from".toList ∧ found.1.isSome = true ∨
        name = "column".toList ∧ found.2.isSome = true := by
  obtain ⟨path, column⟩ := found
  cases path with
  | none => cases column <;> simp [foundList]
  | some path => cases column <;> simp [foundList]

section Found

open scoped List

variable {found found' : Option (List Char) × Option (List Char)}
  {contents : List (List Char × List Char)}

/-- Of the attributes those remain that no later one of their name replaces. -/
theorem exists_perm_helperAttributes (h : helperAttributes found contents = .ok found') :
    ∃ replaced, foundList found ++ contents.map trimmed ~ foundList found' ++ replaced := by
  fun_induction helperAttributes found contents with
  | case1 found =>
    cases h
    exact ⟨[], .refl _⟩
  | case2 found name value rest value' hname ih =>
    obtain ⟨replaced, hperm⟩ := ih h
    obtain rfl := eq_of_beq hname
    refine ⟨replaced ++ (found.1.map fun path => ("from".toList, path)).toList, ?_⟩
    rw [List.map_cons, ← List.append_assoc]
    refine .trans ?_ (hperm.append_right _)
    rw [List.perm_iff_count]
    intro content
    simp [foundList, trimmed, value', List.count_cons]
    omega
  | case3 found name value rest value' _ hname ih =>
    obtain ⟨replaced, hperm⟩ := ih h
    obtain rfl := eq_of_beq hname
    refine ⟨replaced ++ (found.2.map fun column => ("column".toList, column)).toList, ?_⟩
    rw [List.map_cons, ← List.append_assoc]
    refine .trans ?_ (hperm.append_right _)
    rw [List.perm_iff_count]
    intro content
    simp [foundList, trimmed, value', List.count_cons]
    omega
  | case4 => cases h

/-- What has a name is found under that name, or what has replaced it is. -/
theorem names_found (h : helperAttributes found contents = .ok found') :
    ∀ name ∈ (foundList found).map Prod.fst ++ contents.map Prod.fst,
      name ∈ (foundList found').map Prod.fst := by
  fun_induction helperAttributes found contents with
  | case1 found =>
    cases h
    simp
  | case2 found name value rest value' hname ih =>
    obtain rfl := eq_of_beq hname
    intro name hmem
    apply ih h
    simp only [List.mem_append, mem_names_foundList, List.map_cons, List.mem_cons,
      Option.isSome_some, and_true] at hmem ⊢
    tauto
  | case3 found name value rest value' _ hname ih =>
    obtain rfl := eq_of_beq hname
    intro name hmem
    apply ih h
    simp only [List.mem_append, mem_names_foundList, List.map_cons, List.mem_cons,
      Option.isSome_some, and_true] at hmem ⊢
    tauto
  | case4 => cases h

theorem nodup_names_foundList (found : Option (List Char) × Option (List Char)) :
    ((foundList found).map Prod.fst).Nodup := by
  obtain ⟨path, column⟩ := found
  cases path with
  | none => cases column <;> simp [foundList]
  | some path => cases column <;> simp [foundList]

/-- All is found exactly if no name is there twice. -/
theorem exists_perm_contents (h : helperAttributes (none, none) contents = .ok found') :
    ∃ replaced, contents.map trimmed ~ foundList found' ++ replaced ∧
      (replaced = [] ↔ (contents.map Prod.fst).Nodup) := by
  obtain ⟨replaced, hperm⟩ := exists_perm_helperAttributes h
  change contents.map trimmed ~ foundList found' ++ replaced at hperm
  have hnames : (contents.map trimmed).map Prod.fst = contents.map Prod.fst := by
    rw [List.map_map]
    rfl
  refine ⟨replaced, hperm, ?_⟩
  rw [← hnames]
  refine Arguments.replaced_eq_nil_iff hperm (nodup_names_foundList found') fun content hmem => ?_
  exact names_found h _ (List.mem_append_right _ (hnames ▸ List.mem_map_of_mem hmem))

theorem sum_attributeInk_trimmed (contents : List (List Char × List Char)) :
    ((contents.map trimmed).map attributeInk).sum = (contents.map attributeInk).sum := by
  rw [List.map_map]
  exact congrArg List.sum (List.map_congr_left fun content _ => by
    simp [attributeInk, trimmed, ink_trimChars])

end Found

/-- Nothing but blanks is between the attributes of a helper, none is there twice, and one gives the
column. -/
structure Attributed (helper column : List Char) (as : List Attribute) (tail : List Char) : Prop where
  text : helper = as.flatMap Attribute.text ++ tail
  closed : ∀ a ∈ as, a.Closed
  gap : ∀ a ∈ as, Blank a.gap
  tail : Blank tail
  name : ∀ a ∈ as, a.name = "from".toList ∨ a.name = "column".toList
  once : (as.map Attribute.name).Nodup
  column : ∃ a ∈ as, a.name = "column".toList ∧ trimChars a.value = column

/-- The attributes that are read in a helper. -/
def contentsOf (helper : List Char) : List (List Char × List Char) :=
  attributes (helper.length + 1) [] helper

theorem Attributed.contentsOf_eq {helper column : List Char} {as : List Attribute}
    {tail : List Char} (h : Attributed helper column as tail) :
    contentsOf helper = as.map Attribute.content := by
  have hspaced : ∀ a ∈ as, a.Spaced := fun a ha =>
    (h.closed a ha).spaced (h.gap a ha) (h.name a ha)
  rw [contentsOf, h.text]
  exact attributes_texts hspaced h.tail (Nat.lt_succ_self _)

section

variable {helper column column' : List Char} {path : Option (List Char)}

theorem mem_foundList_column : ("column".toList, column) ∈ foundList (path, some column') ↔
    column = column' := by
  cases path <;> simp [foundList]

theorem map_fst_content (as : List Attribute) :
    (as.map Attribute.content).map Prod.fst = as.map Attribute.name := by
  rw [List.map_map]
  rfl

theorem Attributed.column_eq {as : List Attribute} {tail : List Char}
    (h : Attributed helper column as tail)
    (hread : helperAttributes (none, none) (contentsOf helper) = .ok (path, some column')) :
    column = column' := by
  obtain ⟨replaced, hperm, hkept⟩ := exists_perm_contents hread
  rw [h.contentsOf_eq, map_fst_content] at hkept
  rw [h.contentsOf_eq, hkept.2 h.once, List.append_nil] at hperm
  obtain ⟨a, ha, hname, hvalue⟩ := h.column
  have hmem : ("column".toList, column) ∈ (as.map Attribute.content).map trimmed := by
    rw [List.map_map]
    refine List.mem_map.2 ⟨a, ha, ?_⟩
    rw [← hname, ← hvalue]
    rfl
  exact mem_foundList_column.1 (hperm.mem_iff.1 hmem)

/-- The attributes that remain have no more ink than the helper, and as much if it has been read
whole. -/
theorem ink_attributes
    (hread : helperAttributes (none, none) (contentsOf helper) = .ok (path, some column)) :
    ((foundList (path, some column)).map attributeInk).sum ≤ ink helper ∧
      ((∃ as tail, Attributed helper column as tail) ↔
        ink helper = ((foundList (path, some column)).map attributeInk).sum) := by
  obtain ⟨replaced, hperm, hkept⟩ := exists_perm_contents hread
  obtain ⟨as, tail, htext, hcontents, hclosed⟩ :=
    exists_texts_attributes (helper.length + 1) [] helper
  change helper = _ at htext
  change _ = contentsOf helper at hcontents
  have hfound : ((contentsOf helper).map attributeInk).sum =
      ((foundList (path, some column)).map attributeInk).sum + (replaced.map attributeInk).sum := by
    rw [← sum_attributeInk_trimmed, (hperm.map attributeInk).sum_nat, List.map_append,
      List.sum_append]
  have hink := ink_texts hclosed tail
  rw [← htext, hcontents, hfound] at hink
  refine ⟨by omega, ?_, fun heq => ?_⟩
  · rintro ⟨bs, rest, hbs⟩
    rw [hbs.contentsOf_eq, map_fst_content] at hkept
    have hwhole := ink_texts hbs.closed rest
    rw [← hbs.text, ← hbs.contentsOf_eq, hfound, sum_gaps_eq_zero_iff.2 hbs.gap,
      ink_eq_zero_iff.2 hbs.tail, hkept.2 hbs.once] at hwhole
    simpa using hwhole
  · have hlost : (replaced.map attributeInk).sum = 0 := by omega
    have hgaps : (as.map fun a => ink a.gap).sum = 0 := by omega
    have htail : ink tail = 0 := by omega
    have hnames : (contentsOf helper).map Prod.fst = as.map Attribute.name := by
      rw [← hcontents, map_fst_content]
    have hreplaced : replaced = [] := (sum_map_eq_zero_iff fun _ => Nat.succ_pos _).1 hlost
    refine ⟨as, tail, htext, hclosed, sum_gaps_eq_zero_iff.1 hgaps, ink_eq_zero_iff.1 htail, ?_,
      hnames ▸ hkept.1 hreplaced, ?_⟩
    · intro a ha
      have hname : a.name ∈ (contentsOf helper).map Prod.fst :=
        hnames ▸ List.mem_map_of_mem ha
      rcases mem_names_foundList.1 (names_found hread _ (List.mem_append_right _ hname)) with h | h
      · exact .inl h.1
      · exact .inr h.1
    · have hmem : ("column".toList, column) ∈ (contentsOf helper).map trimmed :=
        hperm.mem_iff.2 (List.mem_append_left _ (mem_foundList_column.2 rfl))
      rw [← hcontents, List.map_map] at hmem
      obtain ⟨a, ha, heq⟩ := List.mem_map.1 hmem
      exact ⟨a, ha, congrArg Prod.fst heq, congrArg Prod.snd heq⟩

end

/-! ## Bracket groups -/

/-- The text of a group that fixes a value: a name and what is given for it. -/
def pinGroup (pin : String × List Char) : List Char :=
  pin.1.toList ++ ':' :: pin.2

/-- The value that is fixed. -/
def pinValue (pin : String × List Char) : String × String :=
  (pin.1, String.ofList (trimChars pin.2))

/-- The ink of a bracket group that fixes a value. -/
def pinInk (e : String × String) : Nat :=
  ink e.1.toList + ink e.2.toList + 3

theorem ink_bracketed (group : List Char) : ink (bracketed group) = ink group + 2 := by
  have hopen : isBlank '[' = false := by decide
  have hclose : isBlank ']' = false := by decide
  simp [bracketed, ink_cons hopen, ink_cons hclose]

theorem pinnedHere?_pinGroup {pin : String × List Char} (h : Segment.Named pin.1) :
    pinnedHere? (pinGroup pin) = some (pinValue pin) :=
  pinnedHere?_eq_some_iff.2 ⟨pin.2, rfl, h, rfl⟩

theorem exists_pinGroup {group : List Char} (h : (pinnedHere? group).isSome = true) :
    ∃ pin, Segment.Named pin.1 ∧ pinGroup pin = group := by
  obtain ⟨⟨name, value⟩, he⟩ := Option.isSome_iff_exists.1 h
  obtain ⟨given, hgroup, hname, -⟩ := pinnedHere?_eq_some_iff.1 he
  exact ⟨(name, given), hname, hgroup.symm⟩

theorem exists_pins {groups : List (List Char)}
    (h : ∀ group ∈ groups, (pinnedHere? group).isSome = true) :
    ∃ pins : List (String × List Char), (∀ pin ∈ pins, Segment.Named pin.1) ∧
      pins.map pinGroup = groups := by
  induction groups with
  | nil => exact ⟨[], by simp, rfl⟩
  | cons group groups ih =>
    obtain ⟨hgroup, hgroups⟩ := List.forall_mem_cons.1 h
    obtain ⟨pin, hpin, hpinGroup⟩ := exists_pinGroup hgroup
    obtain ⟨pins, hpins, hpinGroups⟩ := ih hgroups
    exact ⟨pin :: pins, List.forall_mem_cons.2 ⟨hpin, hpins⟩, by
      rw [List.map_cons, hpinGroup, hpinGroups]⟩

theorem filterMap_pinnedIn?_pinGroup {pins : List (String × List Char)}
    (h : ∀ pin ∈ pins, Segment.Named pin.1) :
    (pins.map pinGroup).filterMap pinnedIn? = pins.map pinValue := by
  have hpin : ∀ pin ∈ pins, (pinnedIn? ∘ pinGroup) pin = some (pinValue pin) := fun pin hpin =>
    pinnedIn?_of_pinnedHere? (pinnedHere?_pinGroup (h pin hpin))
  rw [List.filterMap_map, List.filterMap_congr hpin]
  exact congrFun List.filterMap_eq_map pins

theorem pinInk_of_pinnedHere? {group : List Char} {e : String × String}
    (h : pinnedHere? group = some e) : pinInk e = ink (bracketed group) := by
  obtain ⟨name, value⟩ := e
  obtain ⟨given, rfl, -, rfl⟩ := pinnedHere?_eq_some_iff.1 h
  have hcolon : isBlank ':' = false := by decide
  simp [pinInk, ink_bracketed, ink_trimChars, ink_cons hcolon]
  omega

/-- A group that begins otherwise has more ink than what it fixes, if anything. -/
theorem pinInk_lt {group : List Char} (h : pinnedHere? group = none) :
    (pinnedIn? group).elim 0 pinInk < ink (bracketed group) := by
  cases hpinned : pinnedIn? group with
  | none =>
    rw [ink_bracketed]
    exact Nat.succ_pos _
  | some e =>
    rcases exists_of_pinnedIn? hpinned with hhere | ⟨passed, rest, hgroup, hhere⟩
    · rw [h] at hhere
      cases hhere
    · have hopen : isBlank '[' = false := by decide
      rw [Option.elim_some, pinInk_of_pinnedHere? hhere, ink_bracketed, ink_bracketed, hgroup,
        ink_append, ink_cons hopen]
      omega

/-- What groups fix has no more ink than they have, and as much if each begins with what it fixes. -/
theorem ink_groups (groups : List (List Char)) :
    ((groups.filterMap pinnedIn?).map pinInk).sum ≤ ink (groups.flatMap bracketed) ∧
      ((∀ group ∈ groups, (pinnedHere? group).isSome = true) ↔
        ink (groups.flatMap bracketed) = ((groups.filterMap pinnedIn?).map pinInk).sum) := by
  induction groups with
  | nil => simp
  | cons group groups ih =>
    obtain ⟨hle, heq⟩ := ih
    have hsum : (((group :: groups).filterMap pinnedIn?).map pinInk).sum =
        (pinnedIn? group).elim 0 pinInk + ((groups.filterMap pinnedIn?).map pinInk).sum := by
      cases hpinned : pinnedIn? group with
      | none => simp [hpinned]
      | some e => simp [hpinned]
    rw [hsum, List.flatMap_cons, ink_append, List.forall_mem_cons, heq]
    cases hhere : pinnedHere? group with
    | none =>
      have := pinInk_lt hhere
      exact ⟨by omega, fun h => absurd h.1 (by simp), fun h => by omega⟩
    | some e =>
      rw [pinnedIn?_of_pinnedHere? hhere, Option.elim_some, pinInk_of_pinnedHere? hhere]
      exact ⟨by omega, fun h => by omega, fun h => ⟨rfl, by omega⟩⟩

/-- A column's name and groups that fix values, each under a name of its own, which the values
have. -/
structure Pinned (column : List Char) (name : String) (values : Arguments)
    (pins : List (String × List Char)) : Prop where
  text : column = name.toList ++ (pins.map pinGroup).flatMap bracketed
  name : Segment.Named name
  pin : ∀ pin ∈ pins, Segment.Named pin.1 ∧ ']' ∉ pin.2
  distinct : (pins.map Prod.fst).Nodup
  appear : ∀ pin ∈ pins, values.get? pin.1 = some (String.ofList (trimChars pin.2))

theorem Pinned.bracket_not_mem {column : List Char} {name : String} {values : Arguments}
    {pins : List (String × List Char)} (h : Pinned column name values pins) :
    ∀ group ∈ pins.map pinGroup, ']' ∉ group := by
  intro group hgroup
  obtain ⟨pin, hpin, rfl⟩ := List.mem_map.1 hgroup
  exact bracket_not_mem_group (h.pin pin hpin).1 (h.pin pin hpin).2

/-- The groups that are read are those of the pins. -/
theorem Pinned.groups_eq {column : List Char} {name name' : String} {values values' : Arguments}
    {pins : List (String × List Char)} {groups : List (List Char)}
    (h : Pinned column name' values' pins) (hread : readPinnedColumn column = .ok (name, values))
    (hcolumn : column = name.toList ++ groups.flatMap bracketed)
    (hclosed : ∀ group ∈ groups, ']' ∉ group) : groups = pins.map pinGroup := by
  have hpins : readPinnedColumn column =
      .ok (name', Arguments.ofList ((pins.map pinGroup).filterMap pinnedIn?)) :=
    readPinnedColumn_eq_ok_iff.2 ⟨_, h.text, h.name, h.bracket_not_mem, rfl⟩
  rw [hread] at hpins
  obtain rfl : name = name' := congrArg Prod.fst (Except.ok.inj hpins)
  have htext := h.text
  rw [hcolumn, List.append_cancel_left_eq] at htext
  have hsame := bracketGroups?_flatMap hclosed
  rw [htext, bracketGroups?_flatMap h.bracket_not_mem] at hsame
  exact (Option.some.inj hsame).symm

theorem ink_flatMap_bracketed (groups : List (List Char)) :
    ink (groups.flatMap bracketed) = (groups.map fun group => ink (bracketed group)).sum := by
  induction groups with
  | nil => rfl
  | cons group groups ih => simp [ih]

theorem ink_columnText (name : String) (values : Arguments) :
    ink (columnText name values).toList = ink name.toList + (values.entries.map pinInk).sum := by
  have hgroup : ∀ e : String × String,
      ink (bracketed (e.1.toList ++ ':' :: e.2.toList)) = pinInk e := by
    intro e
    have hcolon : isBlank ':' = false := by decide
    simp [ink_bracketed, pinInk, ink_cons hcolon]
    omega
  rw [toList_columnText, ink_append, ink_flatMap_bracketed, groupsOf, List.map_map]
  simp only [Function.comp_def, hgroup]

/-- A column as it is kept has no more ink than it had, and as much if it has been read whole. -/
theorem ink_column {column : List Char} {name : String} {values : Arguments}
    (hread : readPinnedColumn column = .ok (name, values)) :
    ink (columnText name values).toList ≤ ink column ∧
      ((∃ name' pins, Pinned column name' values pins) ↔
        ink column = ink (columnText name values).toList) := by
  obtain ⟨groups, hcolumn, hname, hclosed, hvalues⟩ := readPinnedColumn_eq_ok_iff.1 hread
  obtain ⟨replaced, hperm, hkept⟩ := Arguments.exists_perm_ofList (groups.filterMap pinnedIn?)
  rw [← hvalues] at hperm
  have hfixed : ((groups.filterMap pinnedIn?).map pinInk).sum =
      (values.entries.map pinInk).sum + (replaced.map pinInk).sum := by
    rw [(hperm.map pinInk).sum_nat, List.map_append, List.sum_append]
  obtain ⟨hle, heq⟩ := ink_groups groups
  have hink : ink column = ink name.toList + ink (groups.flatMap bracketed) := by
    rw [hcolumn, ink_append]
  rw [ink_columnText, hink]
  refine ⟨by omega, ?_, fun h => ?_⟩
  · rintro ⟨name', pins, hpins⟩
    obtain rfl := hpins.groups_eq hread hcolumn hclosed
    have hnamed : ∀ pin ∈ pins, Segment.Named pin.1 := fun pin hpin => (hpins.pin pin hpin).1
    have hall := heq.1 fun group hgroup => by
      obtain ⟨pin, hpin, rfl⟩ := List.mem_map.1 hgroup
      rw [pinnedHere?_pinGroup (hnamed pin hpin)]
      rfl
    have hnames : ((pins.map pinGroup).filterMap pinnedIn?).map Prod.fst = pins.map Prod.fst := by
      rw [filterMap_pinnedIn?_pinGroup hnamed, List.map_map]
      rfl
    rw [hkept.2 (hnames ▸ hpins.distinct)] at hfixed
    rw [hall, hfixed]
    simp
  · have hlost : (replaced.map pinInk).sum = 0 := by omega
    have hreplaced : replaced = [] := (sum_map_eq_zero_iff fun _ => Nat.succ_pos _).1 hlost
    obtain ⟨pins, hnamed, rfl⟩ := exists_pins (heq.2 (by omega))
    rw [filterMap_pinnedIn?_pinGroup hnamed] at hperm hkept
    have hdistinct := hkept.1 hreplaced
    rw [hreplaced, List.append_nil] at hperm
    refine ⟨name, pins, hcolumn, hname, fun pin hpin => ⟨hnamed pin hpin, ?_⟩, ?_, ?_⟩
    · have hgroup := hclosed _ (List.mem_map_of_mem hpin)
      rw [pinGroup, List.mem_append, List.mem_cons, not_or, not_or] at hgroup
      exact hgroup.2.2
    · rw [List.map_map] at hdistinct
      exact hdistinct
    · intro pin hpin
      exact Arguments.get?_of_mem (e := pinValue pin) (hperm.mem_iff.1 (List.mem_map_of_mem hpin))

/-! ## Helpers -/

/-- Nothing in a helper but blanks is passed over: it consists of attributes, each there at most
once, and the column of its name and groups, each of which fixes one of the values. -/
def Faithful (helper : List Char) (values : Arguments) : Prop :=
  ∃ column, (∃ as tail, Attributed helper column as tail) ∧
    ∃ name pins, Pinned column name values pins

/-- What is kept of a helper, written out. -/
def keptText (helper : List Char) (joins : List String) (column : String) (values : Arguments) :
    String :=
  helperText (if "from".toList ∈ (contentsOf helper).map Prod.fst then some joins else none) column
    values

theorem ink_helperText (path : Option (List String)) (column : String) (values : Arguments) :
    ink (helperText path column values).toList =
      ((foundList (path.map fun joins => (join "." joins).toList,
        some (columnText column values).toList)).map attributeInk).sum := by
  have hquote : ink "'".toList = 1 := by decide
  have hspace : ink "' ".toList = 1 := by decide
  have hfrom : ink "from='".toList = ink "from".toList + 2 := by decide
  have hcolumn : ink "column='".toList = ink "column".toList + 2 := by decide
  cases path with
  | none =>
    simp only [helperText, Option.elim_none, String.toList_append, ink_append, hquote, hcolumn,
      foundList, attributeInk, Option.map_none, Option.map_some, Option.toList_none,
      Option.toList_some, List.nil_append, List.map_cons, List.map_nil, List.sum_cons, List.sum_nil,
      String.toList_empty]
    omega
  | some joins =>
    simp only [helperText, Option.elim_some, String.toList_append, ink_append, hquote, hspace, hfrom,
      hcolumn, foundList, attributeInk, Option.map_some, Option.toList_some, List.cons_append,
      List.nil_append, List.map_cons, List.map_nil, List.sum_cons, List.sum_nil]
    omega

theorem toList_join_of_mapM {path : List Char} {joins : List String}
    (h : (splitChars '.' path).mapM identifier = .ok joins) : (join "." joins).toList = path := by
  obtain ⟨-, rfl⟩ := mapM_identifier_iff.1 h
  rw [toList_join, List.map_map]
  simpa using intercalate_splitChars path

/-- What a helper that is read gives. -/
theorem exists_of_readHelper {helper : List Char} {segment : Segment}
    (h : readHelper helper = .ok segment) :
    ∃ (path : Option (List String)) (column : List Char) (name : String) (values : Arguments),
      helperAttributes (none, none) (contentsOf helper) =
        .ok (path.map fun joins => (join "." joins).toList, some column) ∧
      readPinnedColumn column = .ok (name, values) ∧
      segment = .pinned (path.getD []) name values := by
  obtain ⟨⟨path, column?⟩, hfound, h⟩ := bind_ok h
  cases column? with
  | none => cases h
  | some column =>
    have hpinned : ∀ {joins : List String},
        (readPinnedColumn column >>= fun read => pure (.pinned joins read.1 read.2)) = .ok segment →
        ∃ name values, readPinnedColumn column = .ok (name, values) ∧
          segment = .pinned joins name values := by
      intro joins h
      obtain ⟨⟨name, values⟩, hcolumn, h⟩ := bind_ok h
      cases h
      exact ⟨name, values, hcolumn, rfl⟩
    cases path with
    | none =>
      obtain ⟨joins, hjoins, h⟩ := bind_ok h
      cases hjoins
      obtain ⟨name, values, hcolumn, hsegment⟩ := hpinned h
      exact ⟨none, column, name, values, hfound, hcolumn, hsegment⟩
    | some path =>
      cases path with
      | nil =>
        obtain ⟨joins, hjoins, h⟩ := bind_ok h
        cases hjoins
        obtain ⟨name, values, hcolumn, hsegment⟩ := hpinned h
        exact ⟨some [], column, name, values, hfound, hcolumn, hsegment⟩
      | cons c cs =>
        obtain ⟨joins, hjoins, h⟩ := bind_ok h
        obtain ⟨name, values, hcolumn, hsegment⟩ := hpinned h
        refine ⟨some joins, column, name, values, ?_, hcolumn, hsegment⟩
        rw [Option.map_some, toList_join_of_mapM hjoins]
        exact hfound

theorem isSome_path_iff {helper : List Char} {path column : Option (List Char)}
    (h : helperAttributes (none, none) (contentsOf helper) = .ok (path, column)) :
    path.isSome = true ↔ "from".toList ∈ (contentsOf helper).map Prod.fst := by
  constructor
  · intro hsome
    obtain ⟨replaced, hperm, -⟩ := exists_perm_contents h
    have hname : "from".toList ∈ (foundList (path, column)).map Prod.fst :=
      mem_names_foundList.2 (.inl ⟨rfl, hsome⟩)
    have hnames := hperm.map Prod.fst
    rw [List.map_map, List.map_append] at hnames
    exact hnames.mem_iff.2 (List.mem_append_left _ hname)
  · intro hname
    obtain h | h := mem_names_foundList.1 (names_found h _ (List.mem_append_right _ hname))
    · exact h.2
    · exact absurd h.1 (by decide)

theorem keptText_eq {helper column : List Char} {path : Option (List String)}
    (h : helperAttributes (none, none) (contentsOf helper) =
      .ok (path.map fun joins => (join "." joins).toList, some column))
    (name : String) (values : Arguments) :
    keptText helper (path.getD []) name values = helperText path name values := by
  have hgiven := isSome_path_iff h
  cases path with
  | none => rw [keptText, if_neg fun hname => by cases hgiven.2 hname]
  | some joins => rw [keptText, if_pos (hgiven.1 rfl), Option.getD_some]

theorem sum_foundList (path : Option (List Char)) (column : List Char) :
    ((foundList (path, some column)).map attributeInk).sum =
      ((foundList (path, none)).map attributeInk).sum + attributeInk ("column".toList, column) := by
  simp [foundList]

/-- A helper has at least the ink of what is kept of it, and just as much if nothing in it is passed
over. -/
theorem ink_keptText {helper : List Char} {joins : List String} {column : String}
    {values : Arguments} (h : readHelper helper = .ok (.pinned joins column values)) :
    ink (keptText helper joins column values).toList ≤ ink helper ∧
      (Faithful helper values ↔
        ink helper = ink (keptText helper joins column values).toList) := by
  obtain ⟨path, text, name, values', hfound, hcolumn, heq⟩ := exists_of_readHelper h
  cases heq
  obtain ⟨hle, hattributed⟩ := ink_attributes hfound
  obtain ⟨hcolumnLe, hpinned⟩ := ink_column hcolumn
  rw [keptText_eq hfound, ink_helperText, sum_foundList]
  rw [sum_foundList] at hle hattributed
  simp only [attributeInk] at hle hattributed ⊢
  refine ⟨by omega, ?_, fun hink => ?_⟩
  · rintro ⟨column', ⟨as, tail, has⟩, hpins⟩
    obtain rfl := has.column_eq hfound
    have hhelper := hattributed.1 ⟨as, tail, has⟩
    have htext := hpinned.1 hpins
    omega
  · exact ⟨text, hattributed.2 (by omega), hpinned.2 (by omega)⟩

/-! ## Templates -/

theorem mem_of_parse {text : String} {segments : Template} (h : parse text = .ok segments)
    {body : List Char} (hbody : Piece.body body ∈ pieces text) :
    ∃ segment ∈ segments, readBody body = .ok segment := by
  obtain ⟨read, hread, rfl⟩ := map_ok h
  obtain ⟨found, hfound, hpiece⟩ := exists_beside (mapM_ok hread) hbody
  obtain ⟨segment, hsegment, rfl⟩ := map_ok hpiece
  exact ⟨segment, List.mem_flatten.2 ⟨_, hfound, List.mem_singleton_self _⟩, hsegment⟩

/-- The body of a text that is one placeholder. -/
theorem body_mem_pieces {text : String} {body : List Char} (hbrace : '}' ∉ body) (hline : '\n' ∉ body)
    (htext : text.toList = '{' :: '{' :: body ++ ['}', '}']) : Piece.body body ∈ pieces text := by
  rw [pieces, htext, piecesFrom_placeholder hbrace hline]
  exact List.mem_cons_of_mem _ List.mem_cons_self

/-- In a template that is read, what is kept of a helper has no more ink than the helper; and nothing
in the helper is passed over exactly if it has as much. -/
theorem parse_keeps {text : String} {segments : Template} (h : parse text = .ok segments)
    {body helper : List Char} (hbody : Piece.body body ∈ pieces text)
    (hhelper : afterChars? "sql ".toList (trimChars body) = some helper) :
    ∃ joins column values, .pinned joins column values ∈ segments ∧
      readHelper helper = .ok (.pinned joins column values) ∧
      ink (keptText helper joins column values).toList ≤ ink helper ∧
      (Faithful helper values ↔
        ink helper = ink (keptText helper joins column values).toList) := by
  obtain ⟨segment, hsegment, hread⟩ := mem_of_parse h hbody
  rw [readBody_of_not_context, hhelper] at hread
  · obtain ⟨path, -, column, values, -, -, rfl⟩ := exists_of_readHelper hread
    exact ⟨_, column, values, hsegment, hread, ink_keptText hread⟩
  · intro rest heq
    rw [heq] at hhelper
    cases hhelper

theorem parse_keeps_label :
    let text := "\x7b\x7b sql from='club' column='label[lang: en]' \x7d\x7d"
    let body := " sql from='club' column='label[lang: en]' ".toList
    let helper := "from='club' column='label[lang: en]'".toList
    let label := Segment.pinned ["club"] "label" (.ofList [("lang", "en")])
    (parse text = .ok [label] ∧ Piece.body body ∈ pieces text ∧
      afterChars? "sql ".toList (trimChars body) = some helper) ∧
    ∃ joins column values, .pinned joins column values ∈ [label] ∧
      readHelper helper = .ok (.pinned joins column values) ∧
      ink (keptText helper joins column values).toList ≤ ink helper ∧
      (Faithful helper values ↔
        ink helper = ink (keptText helper joins column values).toList) := by
  intro text body helper label
  have hparse : parse text = .ok [label] := by decide +kernel
  have hbody : Piece.body body ∈ pieces text := body_mem_pieces (by decide) (by decide) (by decide)
  have hhelper : afterChars? "sql ".toList (trimChars body) = some helper := by decide
  exact ⟨⟨hparse, hbody, hhelper⟩, parse_keeps hparse hbody hhelper⟩

/-- A group that has an equals sign for the colon is passed over, and the column is read without the
value. -/
theorem parse_passes_over :
    let text := "\x7b\x7bsql column='label[lang=en]'\x7d\x7d"
    let body := "sql column='label[lang=en]'".toList
    let helper := "column='label[lang=en]'".toList
    let label := Segment.pinned [] "label" .empty
    parse text = .ok [label] ∧ Piece.body body ∈ pieces text ∧
      afterChars? "sql ".toList (trimChars body) = some helper ∧
      ¬ ∃ joins column values, .pinned joins column values ∈ [label] ∧ Faithful helper values := by
  intro text body helper label
  refine ⟨by decide +kernel, body_mem_pieces (by decide) (by decide) (by decide), by decide, ?_⟩
  rintro ⟨joins, column, values, hmem, hfaithful⟩
  have heq : Segment.pinned joins column values = .pinned [] "label" .empty :=
    List.mem_singleton.1 hmem
  cases heq
  have hread : readHelper helper = .ok label := by decide +kernel
  have hshort : ¬ ink helper = ink (keptText helper [] "label" .empty).toList := by
    decide +kernel
  exact hshort ((ink_keptText hread).2.1 hfaithful)

end Rollup.Template
