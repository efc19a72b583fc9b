/-
Texts taken apart: what follows a beginning, the pieces between separators, and a text without the
blanks around it. Each of these finds again what was put together.
-/
import Mathlib.Data.List.Basic
import Mathlib.Data.List.DropRight
import Rollup.Text.Blank
import Rollup.Text.Split
import Rollup.Text.Word

namespace Rollup.Text

/-! ## Beginnings -/

theorem afterChars?_append (head text : List Char) :
    afterChars? head (head ++ text) = some text := by
  induction head with
  | nil => rfl
  | cons c head ih => simp [afterChars?, ih]

theorem eq_append_of_afterChars? {head text rest : List Char}
    (h : afterChars? head text = some rest) : text = head ++ rest := by
  fun_induction afterChars? head text with
  | case1 text => simpa using h
  | case2 => cases h
  | case3 c head d text heq ih =>
    rw [beq_iff_eq] at heq
    rw [heq, ih h, List.cons_append]
  | case4 => cases h

theorem afterChars?_eq_none {head text : List Char} {c : Char} (hhead : c ∈ head)
    (htext : c ∉ text) : afterChars? head text = none := by
  rw [Option.eq_none_iff_forall_ne_some]
  intro rest h
  rw [eq_append_of_afterChars? h] at htext
  exact htext (List.mem_append_left _ hhead)

theorem occursChars_eq_false {part text : List Char} {c : Char} (hpart : c ∈ part)
    (htext : c ∉ text) : occursChars part text = false := by
  induction text with
  | nil =>
    cases part with
    | nil => cases hpart
    | cons _ _ => rfl
  | cons d text ih =>
    rw [occursChars, afterChars?_eq_none hpart htext, ih fun hmem => htext (.tail _ hmem)]
    rfl

/-! ## Pieces -/

section Pieces

variable {sep : Char}

theorem splitChars_of_not_mem {cs : List Char} (h : sep ∉ cs) : splitChars sep cs = [cs] := by
  induction cs with
  | nil => rfl
  | cons c cs ih =>
    rw [List.mem_cons, not_or] at h
    rw [splitChars, ih h.2, if_neg (by simpa using Ne.symm h.1)]

theorem splitChars_append {cs : List Char} (h : sep ∉ cs) (rest : List Char) :
    splitChars sep (cs ++ sep :: rest) = cs :: splitChars sep rest := by
  induction cs with
  | nil => simp [splitChars]
  | cons c cs ih =>
    rw [List.mem_cons, not_or] at h
    rw [List.cons_append, splitChars, ih h.2, if_neg (by simpa using Ne.symm h.1)]

/-- Pieces without the separator are found again in what they make together. -/
theorem splitChars_intercalate {pieces : List (List Char)} (hne : pieces ≠ [])
    (h : ∀ piece ∈ pieces, sep ∉ piece) : splitChars sep ([sep].intercalate pieces) = pieces := by
  induction pieces with
  | nil => exact absurd rfl hne
  | cons piece rest ih =>
    obtain ⟨hpiece, hrest⟩ := List.forall_mem_cons.1 h
    cases rest with
    | nil => simpa using splitChars_of_not_mem hpiece
    | cons next rest =>
      rw [List.intercalate_cons_cons, List.append_assoc, List.singleton_append,
        splitChars_append hpiece, ih (List.cons_ne_nil _ _) hrest]

theorem splitChars_ne_nil (cs : List Char) : splitChars sep cs ≠ [] := by
  fun_induction splitChars sep cs with
  | case1 => simp
  | case2 => simp
  | case3 => simp
  | case4 => simp

/-- A text is what its pieces make together. -/
theorem intercalate_splitChars (cs : List Char) : [sep].intercalate (splitChars sep cs) = cs := by
  fun_induction splitChars sep cs with
  | case1 => rfl
  | case2 c rest heq ih =>
    have hne : splitChars sep rest ≠ [] := splitChars_ne_nil rest
    obtain ⟨piece, pieces, hpieces⟩ := List.exists_cons_of_ne_nil hne
    rw [beq_iff_eq] at heq
    rw [hpieces, List.intercalate_cons_cons, ← hpieces, ih, heq]
    rfl
  | case3 c rest _ hpieces ih =>
    exact absurd hpieces (splitChars_ne_nil rest)
  | case4 c rest _ piece pieces hpieces ih =>
    rw [hpieces] at ih
    cases pieces with
    | nil => simpa using ih
    | cons next pieces =>
      rw [List.intercalate_cons_cons] at ih ⊢
      rw [List.cons_append, List.cons_append, ih]

theorem not_mem_of_mem_splitChars {cs piece : List Char} (h : piece ∈ splitChars sep cs) :
    sep ∉ piece := by
  fun_induction splitChars sep cs generalizing piece with
  | case1 =>
    rw [List.mem_singleton.1 h]
    exact List.not_mem_nil
  | case2 c rest _ ih =>
    rcases List.mem_cons.1 h with rfl | h
    · exact List.not_mem_nil
    · exact ih h
  | case3 c rest _ hpieces ih =>
    exact absurd hpieces (splitChars_ne_nil rest)
  | case4 c rest hne first pieces hpieces ih =>
    rcases List.mem_cons.1 h with rfl | h
    · have hfirst : sep ∉ first := ih (hpieces ▸ List.mem_cons_self)
      rw [beq_iff_eq] at hne
      exact List.not_mem_cons_of_ne_of_not_mem (Ne.symm hne) hfirst
    · exact ih (hpieces ▸ List.mem_cons_of_mem _ h)

theorem mem_of_mem_splitChars {cs piece : List Char} (h : piece ∈ splitChars sep cs) {c : Char}
    (hc : c ∈ piece) : c ∈ cs := by
  fun_induction splitChars sep cs generalizing piece with
  | case1 =>
    rw [List.mem_singleton.1 h] at hc
    cases hc
  | case2 d rest _ ih =>
    rcases List.mem_cons.1 h with rfl | h
    · cases hc
    · exact List.mem_cons_of_mem d (ih h hc)
  | case3 d rest _ hpieces ih =>
    exact absurd hpieces (splitChars_ne_nil rest)
  | case4 d rest _ first pieces hpieces ih =>
    rcases List.mem_cons.1 h with rfl | h
    · rcases List.mem_cons.1 hc with rfl | hc
      · exact List.mem_cons_self
      · exact List.mem_cons_of_mem d (ih (hpieces ▸ List.mem_cons_self) hc)
    · exact List.mem_cons_of_mem d (ih (hpieces ▸ List.mem_cons_of_mem _ h) hc)

theorem toList_mem_splitChars {s piece : String} (h : piece ∈ split sep s) :
    piece.toList ∈ splitChars sep s.toList := by
  obtain ⟨cs, hcs, rfl⟩ := List.mem_map.1 h
  rwa [String.toList_ofList]

theorem splitFirst?_append {before after s : String} (h : sep ∉ before.toList)
    (hs : s.toList = before.toList ++ sep :: after.toList) :
    splitFirst? sep s = some (before, after) := by
  have hall : ∀ c ∈ before.toList, (c != sep) = true := fun c hc =>
    bne_iff_ne.2 (ne_of_mem_of_not_mem hc h)
  simp [splitFirst?, hs, List.dropWhile_append_of_pos hall, List.takeWhile_append_of_pos hall]

theorem splitFirst?_of_not_mem {s : String} (h : sep ∉ s.toList) : splitFirst? sep s = none := by
  have hall : s.toList.dropWhile (· != sep) = [] :=
    List.dropWhile_eq_nil_iff.2 fun c hc => bne_iff_ne.2 (ne_of_mem_of_not_mem hc h)
  rw [splitFirst?, hall]

end Pieces

theorem toList_join (sep : String) (pieces : List String) :
    (join sep pieces).toList = sep.toList.intercalate (pieces.map String.toList) := by
  induction pieces with
  | nil => simp [join]
  | cons piece rest ih =>
    cases rest with
    | nil => simp [join]
    | cons next rest =>
      rw [List.map_cons, List.map_cons, List.intercalate_cons_cons, ← List.map_cons, ← ih]
      simp [join]

section Joined

variable {sep : String} {c : Char} (hsep : sep.toList = [c]) {pieces : List String}
  (hne : pieces ≠ []) (h : ∀ piece ∈ pieces, c ∉ piece.toList)

include hsep hne h

theorem splitChars_join : splitChars c (join sep pieces).toList = pieces.map String.toList := by
  rw [toList_join, hsep]
  refine splitChars_intercalate (mt List.map_eq_nil_iff.1 hne) fun piece hpiece => ?_
  obtain ⟨s, hs, rfl⟩ := List.mem_map.1 hpiece
  exact h s hs

theorem split_join : split c (join sep pieces) = pieces := by
  rw [split, splitChars_join hsep hne h, List.map_map]
  simp

end Joined

theorem toList_join_empty (pieces : List String) :
    (join "" pieces).toList = pieces.flatMap String.toList := by
  induction pieces with
  | nil => rfl
  | cons piece rest ih =>
    cases rest with
    | nil => simp [join]
    | cons next rest =>
      rw [List.flatMap_cons, ← ih]
      simp [join]

theorem mem_of_mem_join {sep : String} {c : Char} {pieces : List String}
    (h : c ∈ (join sep pieces).toList) :
    c ∈ sep.toList ∨ ∃ piece ∈ pieces, c ∈ piece.toList := by
  induction pieces with
  | nil => cases h
  | cons piece rest ih =>
    cases rest with
    | nil => exact .inr ⟨piece, List.mem_cons_self, h⟩
    | cons next rest =>
      rw [join, String.toList_append, String.toList_append, List.mem_append,
        List.mem_append] at h
      rcases h with (h | h) | h
      · exact .inr ⟨piece, List.mem_cons_self, h⟩
      · exact .inl h
      · obtain hsep | ⟨p, hp, hc⟩ := ih h
        · exact .inl hsep
        · exact .inr ⟨p, List.mem_cons_of_mem _ hp, hc⟩
      · simp

/-! ## Blanks -/

/-- A text of blanks only. -/
def Blank (cs : List Char) : Prop :=
  ∀ c ∈ cs, isBlank c = true

instance : DecidablePred Blank :=
  fun _ => decidable_of_iff _ List.all_eq_true

theorem blank_nil : Blank [] :=
  fun _ hc => absurd hc List.not_mem_nil

theorem dropWhile_blank {before text : List Char} (h : Blank before) :
    (before ++ text).dropWhile isBlank = text.dropWhile isBlank :=
  List.dropWhile_append_of_pos h

theorem dropBlankEnd_append {text after : List Char} (h : Blank after) :
    dropBlankEnd (text ++ after) = dropBlankEnd text := by
  have hreverse : Blank after.reverse := fun c hc => h c (List.mem_reverse.1 hc)
  rw [dropBlankEnd, List.reverse_append, dropWhile_blank hreverse, dropBlankEnd]

theorem dropWhile_of_head? {text : List Char} (h : ∀ c ∈ text.head?, isBlank c = false) :
    text.dropWhile isBlank = text := by
  cases text with
  | nil => rfl
  | cons c text => rw [List.dropWhile_cons_of_neg (by simp [h c rfl])]

/-- A text that neither begins nor ends with a blank is found in the blanks around it. -/
theorem trimChars_append {before text after : List Char} (hbefore : Blank before)
    (hafter : Blank after) (hfirst : ∀ c ∈ text.head?, isBlank c = false)
    (hlast : ∀ c ∈ text.getLast?, isBlank c = false) :
    trimChars (before ++ text ++ after) = text := by
  have hend : dropBlankEnd text = text := by
    have hreverse : ∀ c ∈ text.reverse.head?, isBlank c = false := by
      rwa [List.head?_reverse]
    rw [dropBlankEnd, dropWhile_of_head? hreverse, List.reverse_reverse]
  rw [trimChars, List.append_assoc, dropWhile_blank hbefore]
  cases text with
  | nil => rw [List.nil_append, ← List.append_nil after, dropWhile_blank hafter]; rfl
  | cons c text =>
    have hwhole : (c :: text ++ after).dropWhile isBlank = c :: text ++ after :=
      dropWhile_of_head? hfirst
    rw [hwhole, dropBlankEnd_append hafter, hend]

theorem trimChars_of_ends {text : List Char} (hfirst : ∀ c ∈ text.head?, isBlank c = false)
    (hlast : ∀ c ∈ text.getLast?, isBlank c = false) : trimChars text = text := by
  simpa using trimChars_append blank_nil blank_nil hfirst hlast

/-- What is taken away around a text is blank. -/
theorem exists_trimChars (cs : List Char) :
    ∃ before after, Blank before ∧ Blank after ∧ cs = before ++ trimChars cs ++ after := by
  refine ⟨cs.takeWhile isBlank, ((cs.dropWhile isBlank).reverse.takeWhile isBlank).reverse,
    ?_, ?_, ?_⟩
  · exact fun c hc => List.all_eq_true.1 List.all_takeWhile c hc
  · exact fun c hc => List.all_eq_true.1 List.all_takeWhile c (List.mem_reverse.1 hc)
  · rw [trimChars, dropBlankEnd, List.append_assoc, ← List.reverse_append,
      List.takeWhile_append_dropWhile, List.reverse_reverse, List.takeWhile_append_dropWhile]

theorem mem_of_mem_trimChars {cs : List Char} {c : Char} (hc : c ∈ trimChars cs) : c ∈ cs := by
  obtain ⟨before, after, -, -, hcs⟩ := exists_trimChars cs
  rw [hcs]
  exact List.mem_append_left _ (List.mem_append_right _ hc)

theorem isBlank_head?_trimChars (cs : List Char) :
    ∀ c ∈ (trimChars cs).head?, isBlank c = false := by
  intro c hc
  -- taking blanks away at the end leaves the first character in its place
  have hprefix : trimChars cs <+: cs.dropWhile isBlank := List.rdropWhile_prefix isBlank _
  have hhead : (cs.dropWhile isBlank).head? = some c := by
    obtain ⟨rest, hrest⟩ := List.head?_eq_some_iff.1 hc
    obtain ⟨after, hafter⟩ := hprefix
    rw [← hafter, hrest]
    rfl
  have hnot := List.head?_dropWhile_not isBlank cs
  rwa [hhead] at hnot

theorem isBlank_getLast?_trimChars (cs : List Char) :
    ∀ c ∈ (trimChars cs).getLast?, isBlank c = false := by
  intro c hc
  rw [trimChars, dropBlankEnd, List.getLast?_reverse, Option.mem_def] at hc
  have hnot := List.head?_dropWhile_not isBlank (cs.dropWhile isBlank).reverse
  rwa [hc] at hnot

theorem toList_trim (s : String) : (trim s).toList = trimChars s.toList :=
  String.toList_ofList

end Rollup.Text
