/-
Helpers as they stand in a template: attributes one after the other, and in the value of the last of
them a name with bracket groups. Reading goes through the text once and takes what looks like an
attribute. So every text is attributes with gaps between them, and if the gaps are blank the
attributes are just those that were written.
-/
import Rollup.Proofs.Text.Classes
import Rollup.Proofs.Text.Cutting
import Rollup.Template.Reader

namespace Rollup.Template

open Text

/-! ## Attributes -/

/-- An attribute as it stands in a text. -/
structure Attribute where
  /-- What stands between the attribute before and this one. -/
  gap : List Char := []
  name : List Char
  /-- What stands on either side of the equals sign. -/
  left : List Char := []
  right : List Char := []
  value : List Char

namespace Attribute

/-- An attribute as it is written. -/
def text (a : Attribute) : List Char :=
  a.gap ++ a.name ++ a.left ++ '=' :: a.right ++ '\'' :: a.value ++ ['\'']

/-- What is read of it. -/
def content (a : Attribute) : List Char × List Char :=
  (a.name, a.value)

/-- The equals sign has but blanks around it, and the value holds no quote. -/
structure Closed (a : Attribute) : Prop where
  left : Blank a.left
  right : Blank a.right
  value : '\'' ∉ a.value

end Attribute

theorem attributeValue?_append {left right value : List Char} (hleft : Blank left)
    (hright : Blank right) (hvalue : '\'' ∉ value) (rest : List Char) :
    attributeValue? (left ++ '=' :: right ++ '\'' :: value ++ '\'' :: rest) = some (value, rest) := by
  have hquote : ∀ c ∈ value, (c != '\'') = true := fun c hc =>
    bne_iff_ne.2 (ne_of_mem_of_not_mem hc hvalue)
  have hequals : (left ++ '=' :: right ++ '\'' :: value ++ '\'' :: rest).dropWhile isBlank =
      '=' :: (right ++ '\'' :: (value ++ '\'' :: rest)) := by
    simp only [List.append_assoc, List.cons_append]
    rw [dropWhile_blank hleft]
    rfl
  have hopening : (right ++ '\'' :: (value ++ '\'' :: rest)).dropWhile isBlank =
      '\'' :: (value ++ '\'' :: rest) := by
    rw [dropWhile_blank hright]
    rfl
  have hclosing : (value ++ '\'' :: rest).dropWhile (· != '\'') = '\'' :: rest := by
    rw [List.dropWhile_append_of_pos hquote]
    rfl
  have htaken : (value ++ '\'' :: rest).takeWhile (· != '\'') = value := by
    rw [List.takeWhile_append_of_pos hquote]
    simp
  simp only [attributeValue?, hequals, hopening, hclosing, htaken]

theorem exists_of_attributeValue? {cs value rest : List Char}
    (h : attributeValue? cs = some (value, rest)) :
    ∃ left right, Blank left ∧ Blank right ∧ '\'' ∉ value ∧
      cs = left ++ '=' :: right ++ '\'' :: value ++ '\'' :: rest := by
  have hblank : ∀ ds : List Char, Blank (ds.takeWhile isBlank) := fun ds c hc =>
    List.all_eq_true.1 List.all_takeWhile c hc
  unfold attributeValue? at h
  split at h
  · rename_i behind hequals
    split at h
    · rename_i inside hopening
      split at h
      · rename_i after hclosing
        cases h
        refine ⟨cs.takeWhile isBlank, behind.takeWhile isBlank, hblank _, hblank _, ?_, ?_⟩
        · intro hmem
          have := List.all_eq_true.1 List.all_takeWhile _ hmem
          simp at this
        · have hinside : inside = inside.takeWhile (· != '\'') ++ '\'' :: rest := by
            rw [← hclosing, List.takeWhile_append_dropWhile]
          have hbehind : behind = behind.takeWhile isBlank ++ '\'' :: inside := by
            rw [← hopening, List.takeWhile_append_dropWhile]
          have hcs : cs = cs.takeWhile isBlank ++ '=' :: behind := by
            rw [← hequals, List.takeWhile_append_dropWhile]
          calc cs = cs.takeWhile isBlank ++ '=' :: (behind.takeWhile isBlank ++
                '\'' :: (inside.takeWhile (· != '\'') ++ '\'' :: rest)) := by
                rw [← hinside, ← hbehind, ← hcs]
            _ = _ := by simp
      · cases h
    · cases h
  · cases h

/-! ## Runs of attributes -/

/-- Nothing but the attribute stands in its text, and its name is a word. -/
structure Attribute.Spaced (a : Attribute) : Prop extends a.Closed where
  gap : Blank a.gap
  name : a.name ≠ []
  word : ∀ c ∈ a.name, isWordChar c = true

/-- The names that helpers know are words. -/
theorem Attribute.Closed.spaced {a : Attribute} (h : a.Closed) (hgap : Blank a.gap)
    (hname : a.name = "from".toList ∨ a.name = "column".toList) : a.Spaced := by
  have hfrom : ∀ c ∈ "from".toList, isWordChar c = true := List.all_eq_true.1 (by decide +kernel)
  have hcolumn : ∀ c ∈ "column".toList, isWordChar c = true :=
    List.all_eq_true.1 (by decide +kernel)
  rcases hname with hname | hname
  · exact { h with gap := hgap, name := hname ▸ by decide, word := hname ▸ hfrom }
  · exact { h with gap := hgap, name := hname ▸ by decide, word := hname ▸ hcolumn }

/-- What was taken before stands in front of the first attribute, or of what is left. -/
theorem exists_texts_prepend {cs : List Char} {as : List Attribute} {tail : List Char}
    (htext : cs = as.flatMap Attribute.text ++ tail) (hclosed : ∀ a ∈ as, a.Closed)
    (before : List Char) :
    ∃ (bs : List Attribute) (rest : List Char), before ++ cs = bs.flatMap Attribute.text ++ rest ∧
      bs.map Attribute.content = as.map Attribute.content ∧ ∀ b ∈ bs, b.Closed := by
  cases as with
  | nil => exact ⟨[], before ++ cs, rfl, rfl, by simp⟩
  | cons a as =>
    obtain ⟨ha, has⟩ := List.forall_mem_cons.1 hclosed
    refine ⟨{ a with gap := before ++ a.gap } :: as, tail, ?_, rfl, ?_⟩
    · rw [htext]
      simp [Attribute.text]
    · exact List.forall_mem_cons.2 ⟨⟨ha.left, ha.right, ha.value⟩, has⟩

/-- Every text is attributes with something between them, and these attributes are the ones read. -/
theorem exists_texts_attributes (fuel : Nat) (word cs : List Char) :
    ∃ (as : List Attribute) (tail : List Char),
      word.reverse ++ cs = as.flatMap Attribute.text ++ tail ∧
      as.map Attribute.content = attributes fuel word cs ∧ ∀ a ∈ as, a.Closed := by
  fun_induction attributes fuel word cs with
  | case1 word cs => exact ⟨[], word.reverse ++ cs, rfl, rfl, by simp⟩
  | case2 fuel word _ => exact ⟨[], word.reverse, by simp, rfl, by simp⟩
  | case3 fuel word hword c rest ih =>
    obtain ⟨as, tail, htext, hread, hclosed⟩ := ih
    rw [List.isEmpty_iff] at hword
    subst hword
    split at htext
    · exact ⟨as, tail, by simpa using htext, hread, hclosed⟩
    · obtain ⟨bs, left, hbs, hcontent, hbclosed⟩ :=
        exists_texts_prepend htext hclosed [c]
      exact ⟨bs, left, hbs, hcontent.trans hread, hbclosed⟩
  | case4 fuel word _ c rest _ ih =>
    obtain ⟨as, tail, htext, hread, hclosed⟩ := ih
    exact ⟨as, tail, by simpa using htext, hread, hclosed⟩
  | case5 fuel word _ c rest _ value after hvalue ih =>
    obtain ⟨as, tail, htext, hread, hclosed⟩ := ih
    obtain ⟨left, right, hleft, hright, hquote, hcs⟩ := exists_of_attributeValue? hvalue
    refine ⟨⟨[], word.reverse, left, right, value⟩ :: as, tail, ?_, ?_, ?_⟩
    · rw [hcs, ← List.nil_append after, ← List.reverse_nil, htext]
      simp [Attribute.text]
    · rw [hvalue, List.map_cons, hread, Attribute.content]
    · exact List.forall_mem_cons.2 ⟨⟨hleft, hright, hquote⟩, hclosed⟩
  | case6 fuel word _ c rest _ hnone ih =>
    rw [hnone]
    obtain ⟨as, tail, htext, hread, hclosed⟩ := ih
    obtain ⟨bs, left, hbs, hcontent, hbclosed⟩ :=
      exists_texts_prepend htext hclosed (word.reverse ++ [c])
    exact ⟨bs, left, by simpa using hbs, hcontent.trans hread, hbclosed⟩
  | case7 fuel word _ => exact ⟨[], word.reverse, by simp, rfl, by simp⟩

/-! What is read of attributes with blanks between them. -/

theorem attributes_skip {c : Char} (h : isWordChar c = false) (fuel : Nat) (cs : List Char) :
    attributes (fuel + 1) [] (c :: cs) = attributes fuel [] cs := by
  rw [attributes.eq_def (fuel + 1)]
  simp [h]

theorem attributes_grow {c : Char} (h : isWordChar c = true) (fuel : Nat) (word cs : List Char) :
    attributes (fuel + 1) word (c :: cs) = attributes fuel (c :: word) cs := by
  rw [attributes.eq_def (fuel + 1)]
  cases word with
  | nil => simp [h]
  | cons d word => simp [h]

theorem attributes_close {c : Char} {word cs value after : List Char} (hword : word ≠ [])
    (hc : isWordChar c = false) (hvalue : attributeValue? (c :: cs) = some (value, after))
    (fuel : Nat) :
    attributes (fuel + 1) word (c :: cs) = (word.reverse, value) :: attributes fuel [] after := by
  rw [attributes.eq_def (fuel + 1)]
  simp [hword, hc, hvalue]

theorem attributes_blank {gap : List Char} (h : Blank gap) (fuel : Nat) (cs : List Char) :
    attributes (gap.length + fuel) [] (gap ++ cs) = attributes fuel [] cs := by
  induction gap with
  | nil => simp
  | cons c gap ih =>
    obtain ⟨hc, hgap⟩ := List.forall_mem_cons.1 h
    rw [List.length_cons, Nat.add_right_comm, List.cons_append,
      attributes_skip (isWordChar_of_isBlank hc), ih hgap]

theorem attributes_word {name : List Char} (h : ∀ c ∈ name, isWordChar c = true) (fuel : Nat)
    (word cs : List Char) :
    attributes (name.length + fuel) word (name ++ cs) =
      attributes fuel (name.reverse ++ word) cs := by
  induction name generalizing word with
  | nil => simp
  | cons c name ih =>
    obtain ⟨hc, hname⟩ := List.forall_mem_cons.1 h
    rw [List.length_cons, Nat.add_right_comm, List.cons_append, attributes_grow hc, ih hname]
    simp

theorem Attribute.Spaced.attributes_text {a : Attribute} (h : a.Spaced) (fuel : Nat)
    (cs : List Char) :
    attributes (a.gap.length + (a.name.length + (fuel + 1))) [] (a.text ++ cs) =
      a.content :: attributes fuel [] cs := by
  have hvalue : attributeValue? (a.left ++ '=' :: a.right ++ '\'' :: a.value ++ '\'' :: cs) =
      some (a.value, cs) :=
    attributeValue?_append h.left h.right h.value cs
  obtain ⟨c, rest, hrest, hc⟩ : ∃ c rest,
      a.left ++ '=' :: a.right ++ '\'' :: a.value ++ '\'' :: cs = c :: rest ∧
        isWordChar c = false := by
    cases hleft : a.left with
    | nil => exact ⟨'=', _, rfl, by decide⟩
    | cons c left => exact ⟨c, _, rfl, isWordChar_of_isBlank (h.left c (hleft ▸ List.mem_cons_self))⟩
  have htext : a.text ++ cs = a.gap ++ (a.name ++ c :: rest) := by
    rw [← hrest]
    simp [Attribute.text]
  have hword : a.name.reverse ++ [] ≠ [] := by simpa using h.name
  rw [htext, attributes_blank h.gap, attributes_word h.word,
    attributes_close hword hc (hrest ▸ hvalue)]
  simp [Attribute.content]

theorem attributes_texts {as : List Attribute} {tail : List Char} (hspaced : ∀ a ∈ as, a.Spaced)
    (htail : Blank tail) {fuel : Nat}
    (hfuel : (as.flatMap Attribute.text ++ tail).length < fuel) :
    attributes fuel [] (as.flatMap Attribute.text ++ tail) = as.map Attribute.content := by
  induction as generalizing fuel with
  | nil =>
    obtain ⟨more, rfl⟩ : ∃ more, fuel = tail.length + more :=
      Nat.exists_eq_add_of_le (Nat.le_of_lt hfuel)
    have hall := attributes_blank htail more []
    rw [List.append_nil] at hall
    rw [List.flatMap_nil, List.nil_append, hall]
    cases more with
    | zero => rfl
    | succ more => rfl
  | cons a as ih =>
    obtain ⟨ha, has⟩ := List.forall_mem_cons.1 hspaced
    rw [List.flatMap_cons, List.append_assoc] at hfuel ⊢
    have hlength : a.gap.length + a.name.length + 1 ≤ a.text.length := by
      simp only [Attribute.text, List.length_append, List.length_cons]
      omega
    obtain ⟨more, rfl⟩ : ∃ more, fuel = a.gap.length + (a.name.length + (more + 1)) := by
      refine ⟨fuel - (a.gap.length + a.name.length + 1), ?_⟩
      rw [List.length_append] at hfuel
      omega
    rw [ha.attributes_text, List.map_cons, ih has]
    rw [List.length_append] at hfuel
    omega

/-! ## Bracket groups -/

/-- A group in brackets. -/
def bracketed (group : List Char) : List Char :=
  '[' :: group ++ [']']

theorem bracketGroups?_inside {group : List Char} (h : ']' ∉ group) (rest : List Char) :
    bracketGroups? true (group ++ ']' :: rest) = (bracketGroups? false rest).map (group :: ·) := by
  induction group with
  | nil => simp [bracketGroups?]
  | cons c group ih =>
    rw [List.mem_cons, not_or] at h
    rw [List.cons_append, bracketGroups?, if_neg (by simpa using Ne.symm h.1), ih h.2,
      Option.map_map]
    rfl

theorem bracketGroups?_flatMap {groups : List (List Char)} (h : ∀ group ∈ groups, ']' ∉ group) :
    bracketGroups? false (groups.flatMap bracketed) = some groups := by
  induction groups with
  | nil => rfl
  | cons group groups ih =>
    obtain ⟨hgroup, hgroups⟩ := List.forall_mem_cons.1 h
    have htext : (group :: groups).flatMap bracketed =
        '[' :: (group ++ ']' :: groups.flatMap bracketed) := by
      simp [bracketed]
    rw [htext, bracketGroups?, if_pos (beq_self_eq_true _), bracketGroups?_inside hgroup, ih hgroups]
    rfl

/-- Inside a group its opening bracket has been passed already. -/
theorem eq_flatMap_of_bracketGroups? {inside : Bool} {cs : List Char} {groups : List (List Char)}
    (h : bracketGroups? inside cs = some groups) :
    (if inside then '[' :: cs else cs) = groups.flatMap bracketed ∧
      ∀ group ∈ groups, ']' ∉ group := by
  fun_induction bracketGroups? inside cs generalizing groups with
  | case1 => cases h; exact ⟨rfl, by simp⟩
  | case2 => cases h
  | case3 c rest hopen ih =>
    obtain ⟨htext, hgroups⟩ := ih h
    rw [beq_iff_eq] at hopen
    exact ⟨by simpa [hopen] using htext, hgroups⟩
  | case4 => cases h
  | case5 c rest hclose ih =>
    obtain ⟨gs, hgs, rfl⟩ := Option.map_eq_some_iff.1 h
    obtain ⟨htext, hgroups⟩ := ih hgs
    rw [beq_iff_eq] at hclose
    refine ⟨?_, List.forall_mem_cons.2 ⟨List.not_mem_nil, hgroups⟩⟩
    rw [List.flatMap_cons, ← htext, hclose]
    rfl
  | case6 c rest hclose ih =>
    obtain ⟨gs, hgs, rfl⟩ := Option.map_eq_some_iff.1 h
    obtain ⟨htext, hgroups⟩ := ih hgs
    rw [beq_iff_eq] at hclose
    cases gs with
    | nil => cases htext
    | cons g gs =>
      obtain ⟨hg, hgs⟩ := List.forall_mem_cons.1 hgroups
      refine ⟨?_, List.forall_mem_cons.2 ⟨?_, hgs⟩⟩
      · have hrest : rest = g ++ (']' :: gs.flatMap bracketed) := by
          simpa [bracketed] using htext
        simp [bracketed, hrest]
      · rw [List.mem_cons, not_or]
        exact ⟨Ne.symm hclose, hg⟩

theorem bracketGroups?_eq_some_iff {cs : List Char} {groups : List (List Char)} :
    bracketGroups? false cs = some groups ↔
      cs = groups.flatMap bracketed ∧ ∀ group ∈ groups, ']' ∉ group := by
  constructor
  · exact eq_flatMap_of_bracketGroups?
  · rintro ⟨rfl, h⟩
    exact bracketGroups?_flatMap h

/-! ## Pins -/

theorem bracket_not_mem_group {name given : List Char} (hname : isIdentifier name = true)
    (hgiven : ']' ∉ given) : ']' ∉ name ++ ':' :: given := by
  rw [List.mem_append, List.mem_cons]
  rintro (hmem | hcolon | hmem)
  · exact not_mem_of_isIdentifier hname (by decide) hmem
  · cases hcolon
  · exact hgiven hmem

theorem pinnedHere?_eq_some_iff {cs : List Char} {name value : String} :
    pinnedHere? cs = some (name, value) ↔
      ∃ given, cs = name.toList ++ ':' :: given ∧ isIdentifier name.toList = true ∧
        value = String.ofList (trimChars given) := by
  constructor
  · intro h
    unfold pinnedHere? at h
    split at h
    · rename_i given hcolon
      dsimp only at h
      split at h
      · rename_i hname
        cases h
        refine ⟨given, ?_, by simpa using hname, rfl⟩
        rw [String.toList_ofList, ← hcolon, List.takeWhile_append_dropWhile]
      · cases h
    · cases h
  · rintro ⟨given, rfl, hname, rfl⟩
    have hchars : ∀ c ∈ name.toList, isIdentChar c = true := fun c hc => isIdentChar_of_mem hname hc
    have hcolon : isIdentChar ':' = false := by decide
    have hrest : (name.toList ++ ':' :: given).dropWhile isIdentChar = ':' :: given := by
      rw [List.dropWhile_append_of_pos hchars, List.dropWhile_cons_of_neg (by simp [hcolon])]
    have htaken : (name.toList ++ ':' :: given).takeWhile isIdentChar = name.toList := by
      rw [List.takeWhile_append_of_pos hchars, List.takeWhile_cons_of_neg (by simp [hcolon]),
        List.append_nil]
    simp [pinnedHere?, hrest, htaken, hname]

theorem pinnedIn?_of_pinnedHere? {group : List Char} {pin : String × String}
    (h : pinnedHere? group = some pin) : pinnedIn? group = some pin := by
  rw [pinnedIn?, h]

theorem exists_of_afterBracket? {group : List Char} {pin : String × String}
    (h : pinnedIn?.afterBracket? group = some pin) :
    ∃ passed rest, group = passed ++ '[' :: rest ∧ pinnedHere? rest = some pin := by
  fun_induction pinnedIn?.afterBracket? group with
  | case1 => cases h
  | case2 c rest hopen found hfound =>
    rw [beq_iff_eq] at hopen
    exact ⟨[], rest, by rw [hopen, List.nil_append], hfound.trans h⟩
  | case3 c rest _ _ ih =>
    obtain ⟨passed, after, rfl, hpin⟩ := ih h
    exact ⟨c :: passed, after, rfl, hpin⟩
  | case4 c rest _ ih =>
    obtain ⟨passed, after, rfl, hpin⟩ := ih h
    exact ⟨c :: passed, after, rfl, hpin⟩

/-- What a group fixes is at its start, or behind text that is passed over. -/
theorem exists_of_pinnedIn? {group : List Char} {pin : String × String}
    (h : pinnedIn? group = some pin) :
    pinnedHere? group = some pin ∨
      ∃ passed rest, group = passed ++ '[' :: rest ∧ pinnedHere? rest = some pin := by
  unfold pinnedIn? at h
  split at h
  · rename_i found hfound
    exact .inl (hfound.trans h)
  · exact .inr (exists_of_afterBracket? h)

theorem readPinnedColumn_eq_ok_iff {cs : List Char} {name : String} {values : Arguments} :
    readPinnedColumn cs = .ok (name, values) ↔
      ∃ groups : List (List Char), cs = name.toList ++ groups.flatMap bracketed ∧
        isIdentifier name.toList = true ∧ (∀ group ∈ groups, ']' ∉ group) ∧
        values = Arguments.ofList (groups.filterMap pinnedIn?) := by
  constructor
  · intro h
    unfold readPinnedColumn at h
    dsimp only at h
    split at h
    · rename_i groups hname hgroups
      cases h
      obtain ⟨hrest, hclosed⟩ := bracketGroups?_eq_some_iff.1 hgroups
      refine ⟨groups, ?_, by simpa using hname, hclosed, rfl⟩
      rw [String.toList_ofList, ← hrest, List.takeWhile_append_dropWhile]
    · cases h
  · rintro ⟨groups, rfl, hname, hclosed, rfl⟩
    have hchars : ∀ c ∈ name.toList, isIdentChar c = true := fun c hc => isIdentChar_of_mem hname hc
    have hbracket : isIdentChar '[' = false := by decide
    have htext : (name.toList ++ groups.flatMap bracketed).takeWhile isIdentChar = name.toList ∧
        (name.toList ++ groups.flatMap bracketed).dropWhile isIdentChar =
          groups.flatMap bracketed := by
      rw [List.takeWhile_append_of_pos hchars, List.dropWhile_append_of_pos hchars]
      cases groups with
      | nil => simp
      | cons group groups => simp [bracketed, hbracket]
    simp only [readPinnedColumn, htext.1, htext.2, hname,
      bracketGroups?_eq_some_iff.2 ⟨rfl, hclosed⟩, String.ofList_toList]

end Rollup.Template
