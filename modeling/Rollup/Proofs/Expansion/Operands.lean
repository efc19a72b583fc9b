/-
The columns of a formula as operands. What a formula stands for is text with the texts of columns in
it, and these are put in without parentheses. So a column is the operand that the formula makes it,
if its own text binds as tightly as the operators around it demand.
-/
import Rollup.Proofs.Expansion.Dialects
import Rollup.Proofs.Sql.Places

namespace Rollup.Expansion

open Sql Sql.Precedence

section

variable {m : Model} {mode : Mode} {scope : Scope m}

/-! ## Formulas taken apart -/

/-- What a formula stands for, taken apart at the columns it refers to: the text up to the first of
them, and each column's text with what stands between it and the next one. -/
inductive Woven (mode : Mode) (scope : Scope m) (site : Site m) :
    Template → String → List (String × String) → Prop
  | text {us out ps} (hplain : us.all (!·.isColumn) = true)
    (htext : Denotes mode scope site us out ps) : Woven mode scope site us out []
  | column {us segment vs out sql next rest ps qs} (hplain : us.all (!·.isColumn) = true)
    (htext : Denotes mode scope site us out ps) (hcolumn : segment.isColumn = true)
    (hsql : Denotes mode scope site [segment] sql qs) (hrest : Woven mode scope site vs next rest) :
    Woven mode scope site (us ++ segment :: vs) out ((sql, next) :: rest)

/-- Text in front of what is taken apart. -/
theorem Woven.cons {site : Site m} {segment : Segment} {u : Template} {text first : String}
    {rest : List (String × String)} (hplain : segment.isColumn = false)
    (hpush : ∀ {us out ps}, Denotes mode scope site us out ps →
      ∃ qs, Denotes mode scope site (segment :: us) (text ++ out) qs)
    (h : Woven mode scope site u first rest) :
    Woven mode scope site (segment :: u) (text ++ first) rest := by
  have hall : ∀ {us : Template}, us.all (!·.isColumn) = true →
      (segment :: us).all (!·.isColumn) = true := by
    intro us hus
    rw [List.all_cons, hplain, hus]
    rfl
  cases h with
  | text hus htext =>
    obtain ⟨qs, hpushed⟩ := hpush htext
    exact .text (hall hus) hpushed
  | column hus htext hcolumn hsql hrest =>
    obtain ⟨qs, hpushed⟩ := hpush htext
    exact .column (hall hus) hpushed hcolumn hsql hrest

/-- A column in front of what is taken apart. -/
theorem Woven.place {site : Site m} {segment : Segment} {u : Template} {sql first : String}
    {qs : List JoinPath} {rest : List (String × String)} (hcolumn : segment.isColumn = true)
    (hsql : Denotes mode scope site [segment] (sql ++ "") qs)
    (h : Woven mode scope site u first rest) :
    Woven mode scope site (segment :: u) "" ((sql, first) :: rest) := by
  rw [String.append_empty] at hsql
  exact .column rfl .done hcolumn hsql h

theorem weave_append (text first : String) (rest : List (String × String)) :
    weave (text ++ first) rest = text ++ weave first rest := by
  cases rest with
  | nil => rfl
  | cons e rest => rw [weave, weave, String.append_assoc]

theorem weave_empty (sql first : String) (rest : List (String × String)) :
    weave "" ((sql, first) :: rest) = sql ++ weave first rest := by
  rw [weave, String.empty_append]

/-- Every formula can be taken apart. -/
theorem exists_woven {site : Site m} {u : Template} {out : String} {ps : List JoinPath}
    (h : Denotes mode scope site u out ps) :
    ∃ first rest, Woven mode scope site u first rest ∧ out = weave first rest := by
  induction u generalizing out ps with
  | nil =>
    cases h
    exact ⟨"", [], .text rfl .done, rfl⟩
  | cons segment u ih =>
    cases h with
    | literal hrest =>
      obtain ⟨first, rest, hwoven, rfl⟩ := ih hrest
      exact ⟨_, rest, hwoven.cons rfl fun h => ⟨_, .literal h⟩, (weave_append ..).symm⟩
    | physical hjoins hrest =>
      obtain ⟨first, rest, hwoven, rfl⟩ := ih hrest
      exact ⟨_, rest, hwoven.cons rfl fun h => ⟨_, .physical hjoins h⟩, (weave_append ..).symm⟩
    | logical hjoins hcolumn hrest =>
      obtain ⟨first, rest, hwoven, rfl⟩ := ih hrest
      exact ⟨_, _, hwoven.place rfl (.logical hjoins hcolumn .done), (weave_empty ..).symm⟩
    | pinned hjoins hcolumn hrest =>
      obtain ⟨first, rest, hwoven, rfl⟩ := ih hrest
      exact ⟨_, _, hwoven.place rfl (.pinned hjoins hcolumn .done), (weave_empty ..).symm⟩
    | columnArgument hvalue hrest =>
      obtain ⟨first, rest, hwoven, rfl⟩ := ih hrest
      exact ⟨_, rest, hwoven.cons rfl fun h => ⟨_, .columnArgument hvalue h⟩,
        (weave_append ..).symm⟩
    | tableArgument hvalue hrest =>
      obtain ⟨first, rest, hwoven, rfl⟩ := ih hrest
      exact ⟨_, rest, hwoven.cons rfl fun h => ⟨_, .tableArgument hvalue h⟩,
        (weave_append ..).symm⟩
    | columnBase hbase hrest =>
      obtain ⟨first, rest, hwoven, rfl⟩ := ih hrest
      exact ⟨_, _, hwoven.place rfl (.columnBase hbase .done), (weave_empty ..).symm⟩

/-- Templates one after the other stand for their texts one after the other. -/
theorem Denotes.append {site : Site m} {u v : Template} {a b : String} {ps qs : List JoinPath}
    (ha : Denotes mode scope site u a ps) (hb : Denotes mode scope site v b qs) :
    ∃ rs, Denotes mode scope site (u ++ v) (a ++ b) rs := by
  induction u generalizing a ps with
  | nil =>
    cases ha
    exact ⟨qs, by rwa [String.empty_append]⟩
  | cons segment u ih =>
    cases ha with
    | literal hrest =>
      obtain ⟨rs, h⟩ := ih hrest
      exact ⟨_, by rw [String.append_assoc]; exact .literal h⟩
    | physical hjoins hrest =>
      obtain ⟨rs, h⟩ := ih hrest
      exact ⟨_, by rw [String.append_assoc]; exact .physical hjoins h⟩
    | logical hjoins hcolumn hrest =>
      obtain ⟨rs, h⟩ := ih hrest
      exact ⟨_, by rw [String.append_assoc]; exact .logical hjoins hcolumn h⟩
    | pinned hjoins hcolumn hrest =>
      obtain ⟨rs, h⟩ := ih hrest
      exact ⟨_, by rw [String.append_assoc]; exact .pinned hjoins hcolumn h⟩
    | columnArgument hvalue hrest =>
      obtain ⟨rs, h⟩ := ih hrest
      exact ⟨_, by rw [String.append_assoc]; exact .columnArgument hvalue h⟩
    | tableArgument hvalue hrest =>
      obtain ⟨rs, h⟩ := ih hrest
      exact ⟨_, by rw [String.append_assoc]; exact .tableArgument hvalue h⟩
    | columnBase hbase hrest =>
      obtain ⟨rs, h⟩ := ih hrest
      exact ⟨_, by rw [String.append_assoc]; exact .columnBase hbase h⟩

/-- A formula stands for its texts with those of its columns between them. -/
theorem Woven.denotes {site : Site m} {u : Template} {first : String}
    {rest : List (String × String)} (h : Woven mode scope site u first rest) :
    ∃ ps, Denotes mode scope site u (weave first rest) ps := by
  induction h with
  | text _ htext => exact ⟨_, htext⟩
  | column _ htext _ hsql _ ih =>
    obtain ⟨_, hrest⟩ := ih
    obtain ⟨_, hbehind⟩ := hsql.append hrest
    exact htext.append hbehind

/-! ## Columns of the model -/

/-- What a column expands to without a grain is what its formula stands for. -/
theorem denotes_of_expandColumn {path : JoinPath} {column : String} {arguments : Arguments}
    {f : Fragment} (h : expandColumn mode scope path column arguments none = .ok f) :
    ∃ t c given u ps, tableAt scope.root path = .ok t ∧
      Model.Member.column? t column = some c ∧ Template.parse c.1.formula = .ok u ∧
      Denotes mode scope ⟨t, path, some c, given, none⟩ u f.sql ps := by
  obtain ⟨walked, ⟨t, reached, ps, hleads, hexpands, -⟩, -⟩ := expandColumn_standsFor h
  have hpath : reached = path := by rw [hleads.path_eq, List.nil_append]
  subst hpath
  cases hexpands with
  | column hcolumn _ hformula hbase hgrain =>
    rw [grainAt_empty] at hgrain
    cases hgrain with
    | none | unnamed _ => exact ⟨t, _, _, _, _, tableAt_eq_ok_iff.2 hleads, hcolumn, hformula, hbase⟩

end

end Rollup.Expansion
