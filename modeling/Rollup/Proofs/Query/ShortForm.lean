/-
The short form of paths, written and read. A text is cut at its first at sign, and what stands
before it at every dot, so the steps that are read have neither mark in them. Reading forgets the
blanks around the steps and how the grain was spelled, and nothing of that is in the path it gives.
So a path that is read from some text is also read from its own, and these are the paths without
arguments all of whose steps can stand between dots.
-/
import Rollup.Path
import Rollup.Proofs.Text.Cutting

namespace Rollup

theorem Grain.parse_name (g : Grain) : Grain.parse g.name = .ok g := by
  cases g <;> decide

namespace Path

open Text (isBlank)

/-! ## Steps -/

/-- A step that can stand between dots: it has characters, none of them a dot or an at sign, and no
blanks stand around it. -/
structure Step (name : String) : Prop where
  nonempty : name ≠ ""
  dot : '.' ∉ name.toList
  sign : '@' ∉ name.toList
  first : ∀ c ∈ name.toList.head?, isBlank c = false
  last : ∀ c ∈ name.toList.getLast?, isBlank c = false

theorem Step.trim {name : String} (h : Step name) : Text.trim name = name := by
  rw [Text.trim, Text.trimChars_of_ends h.first h.last, String.ofList_toList]

theorem Step.of_trim {piece : String} (hempty : Text.trim piece ≠ "")
    (hdot : '.' ∉ piece.toList) (hsign : '@' ∉ piece.toList) : Step (Text.trim piece) where
  nonempty := hempty
  dot hmem := hdot (Text.mem_of_mem_trimChars (Text.toList_trim piece ▸ hmem))
  sign hmem := hsign (Text.mem_of_mem_trimChars (Text.toList_trim piece ▸ hmem))
  first := Text.toList_trim piece ▸ Text.isBlank_head?_trimChars piece.toList
  last := Text.toList_trim piece ▸ Text.isBlank_getLast?_trimChars piece.toList

section Steps

variable {text column : String} {joins : List String}

theorem steps?_eq_some_iff : steps? text = some (joins, column) ↔
    (Text.split '.' text).map Text.trim = joins ++ [column] ∧ "" ∉ joins ++ [column] := by
  have hne : (Text.split '.' text).map Text.trim ≠ [] := by
    simpa [Text.split] using Text.splitChars_ne_nil text.toList
  obtain ⟨names, name, hnames⟩ := (List.eq_nil_or_concat' _).resolve_left hne
  have hempty : (names ++ [name]).any (·.isEmpty) = true ↔ "" ∈ names ++ [name] := by simp
  rw [steps?, hnames, List.dropLast_concat, List.getLastD_concat]
  split
  case isTrue h =>
    refine iff_of_false (Option.some_ne_none _).symm ?_
    rintro ⟨heq, hfree⟩
    exact hfree (heq ▸ hempty.1 h)
  case isFalse h =>
    rw [Option.some.injEq, Prod.mk.injEq]
    constructor
    · rintro ⟨rfl, rfl⟩
      exact ⟨rfl, mt hempty.2 h⟩
    · rintro ⟨heq, -⟩
      obtain ⟨hjoins, hcolumn⟩ := List.append_inj' heq rfl
      exact ⟨hjoins, (List.cons.inj hcolumn).1⟩

theorem step_of_steps? (hsign : '@' ∉ text.toList) (h : steps? text = some (joins, column)) :
    ∀ name ∈ joins ++ [column], Step name := by
  obtain ⟨hnames, hempty⟩ := steps?_eq_some_iff.1 h
  intro name hname
  have hne : name ≠ "" := ne_of_mem_of_not_mem hname hempty
  rw [← hnames] at hname
  obtain ⟨piece, hpiece, rfl⟩ := List.mem_map.1 hname
  have hchars := Text.toList_mem_splitChars hpiece
  exact .of_trim hne (Text.not_mem_of_mem_splitChars hchars) fun hmem =>
    hsign (Text.mem_of_mem_splitChars hchars hmem)

variable (h : ∀ name ∈ joins ++ [column], Step name)

include h

theorem steps?_join : steps? (Text.join "." (joins ++ [column])) = some (joins, column) := by
  have hsplit : Text.split '.' (Text.join "." (joins ++ [column])) = joins ++ [column] :=
    Text.split_join rfl (List.concat_ne_nil column joins) fun name hname => (h name hname).dot
  have htrim : (joins ++ [column]).map Text.trim = joins ++ [column] :=
    (List.map_congr_left fun name hname => (h name hname).trim).trans (List.map_id' _)
  rw [steps?_eq_some_iff, hsplit]
  exact ⟨htrim, fun hempty => (h "" hempty).nonempty rfl⟩

theorem sign_not_mem_join : '@' ∉ (Text.join "." (joins ++ [column])).toList := by
  intro hmem
  obtain hdot | ⟨name, hname, hmem⟩ := Text.mem_of_mem_join hmem
  · exact absurd hdot (by decide)
  · exact (h name hname).sign hmem

end Steps

/-! ## Spellings -/

/-- The texts that a path is read from: its steps, and the grain in any of its spellings. -/
inductive Spells : String → Path → Prop where
  | plain {text column : String} {joins : List String} (hsign : '@' ∉ text.toList)
      (hsteps : steps? text = some (joins, column)) : Spells text ⟨joins, column, none, .empty⟩
  | grained {text steps spelling column : String} {joins : List String} {g : Grain}
      (htext : text.toList = steps.toList ++ '@' :: spelling.toList)
      (hsign : '@' ∉ steps.toList) (hgrain : Grain.parse spelling = .ok g)
      (hsteps : steps? steps = some (joins, column)) :
      Spells text ⟨joins, column, some g, .empty⟩

section Spellings

variable {text : String} {p : Path}

theorem parse_plain (hsign : '@' ∉ text.toList) : parse text = match steps? text with
    | some (joins, column) => .ok ⟨joins, column, none, .empty⟩
    | none => .error (.malformed text) := by
  rw [parse, Text.splitFirst?_of_not_mem hsign]
  rfl

theorem parse_grained {steps spelling : String} (hsign : '@' ∉ steps.toList)
    (htext : text.toList = steps.toList ++ '@' :: spelling.toList) :
    parse text = match Grain.parse spelling with
      | .error e => .error (.grain e)
      | .ok g => match steps? steps with
        | some (joins, column) => .ok ⟨joins, column, some g, .empty⟩
        | none => .error (.malformed text) := by
  rw [parse, Text.splitFirst?_append hsign htext]
  dsimp only
  cases Grain.parse spelling with
  | error e => rfl
  | ok g => rfl

theorem parse_eq_ok_iff : parse text = .ok p ↔ Spells text p := by
  constructor
  · intro h
    by_cases hsign : '@' ∈ text.toList
    · obtain ⟨steps, spelling, htext, hsteps⟩ := List.eq_append_cons_of_mem hsign
      rw [← String.toList_ofList (l := steps)] at hsteps htext
      rw [← String.toList_ofList (l := spelling)] at htext
      rw [parse_grained hsteps htext] at h
      split at h
      case h_1 => cases h
      case h_2 g hgrain =>
        split at h
        case h_1 joins column hcut =>
          cases h
          exact .grained htext hsteps hgrain hcut
        case h_2 => cases h
    · rw [parse_plain hsign] at h
      split at h
      case h_1 joins column hcut =>
        cases h
        exact .plain hsign hcut
      case h_2 => cases h
  · rintro (⟨hsign, hsteps⟩ | ⟨htext, hsign, hgrain, hsteps⟩)
    · rw [parse_plain hsign, hsteps]
    · rw [parse_grained hsign htext, hgrain]
      dsimp only
      rw [hsteps]

theorem Spells.arguments_eq (h : Spells text p) : p.arguments = .empty := by
  cases h with
  | plain => rfl
  | grained => rfl

theorem Spells.step (h : Spells text p) : ∀ name ∈ p.joins ++ [p.column], Step name := by
  cases h with
  | plain hsign hsteps => exact step_of_steps? hsign hsteps
  | grained _ hsign _ hsteps => exact step_of_steps? hsign hsteps

theorem spells_display (harguments : p.arguments = .empty)
    (hsteps : ∀ name ∈ p.joins ++ [p.column], Step name) : Spells p.display p := by
  obtain ⟨joins, column, grain, arguments⟩ := p
  obtain rfl : arguments = .empty := harguments
  have hcut := steps?_join hsteps
  have hsign := sign_not_mem_join hsteps
  cases grain with
  | none =>
    have htext : display ⟨joins, column, none, .empty⟩ = Text.join "." (joins ++ [column]) := by
      simp [display, Arguments.isEmpty, Arguments.empty]
    exact htext ▸ .plain hsign hcut
  | some g =>
    have htext : (display ⟨joins, column, some g, .empty⟩).toList =
        (Text.join "." (joins ++ [column])).toList ++ '@' :: g.name.toList := by
      simp [display, Arguments.isEmpty, Arguments.empty]
    exact .grained htext hsign g.parse_name hcut

end Spellings

/-- A path is read from its own text whenever it is read from any. The paths that are read are those
without arguments whose steps have characters, no dot and no at sign among them, and no blanks
around. -/
theorem parse_display_iff (p : Path) :
    (parse p.display = .ok p ↔ ∃ text, parse text = .ok p) ∧
      ((∃ text, parse text = .ok p) ↔
        p.arguments = .empty ∧ ∀ name ∈ p.joins ++ [p.column], Step name) := by
  have hread (h : parse p.display = .ok p) : ∃ text, parse text = .ok p := ⟨_, h⟩
  have hsteps : (∃ text, parse text = .ok p) →
      p.arguments = .empty ∧ ∀ name ∈ p.joins ++ [p.column], Step name := by
    rintro ⟨text, h⟩
    have hspells := parse_eq_ok_iff.1 h
    exact ⟨hspells.arguments_eq, hspells.step⟩
  have hshown (h : p.arguments = .empty ∧ ∀ name ∈ p.joins ++ [p.column], Step name) :
      parse p.display = .ok p :=
    parse_eq_ok_iff.2 (spells_display h.1 h.2)
  exact ⟨⟨hread, hshown ∘ hsteps⟩, ⟨hsteps, hread ∘ hshown⟩⟩

example : (parse " tour .\u3000leg.played_at@IsoWeek").map display =
    .ok "tour.leg.played_at@iso_week" := by decide +kernel

end Path

end Rollup
