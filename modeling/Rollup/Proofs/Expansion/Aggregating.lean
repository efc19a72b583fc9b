/-
Formulas that aggregate as their columns say. The kind of a column says of its formula that it calls an
aggregate, as that of a metric without an aggregation does, or that it calls none, as that of a
dimension. It is said of what the column expands to wherever it is read, and nobody checks it; for
plain formulas it can be seen.
-/
import Rollup.Proofs.Expansion.Dialects
import Rollup.Proofs.Query.Accepted

namespace Rollup

open Sql

/-! ## Formulas that aggregate -/

namespace Model

/-- What columns of a kind expand to, wherever they are read, has a property. -/
def EachExpansion (m : Model) (d : Dialect) (kind : Column → Prop) (P : String → Prop) : Prop :=
  ∀ (scope : Scope m) path column arguments grain t c f, followJoins scope.root path = .ok t →
    t.1.column? column = some c → kind c →
    expandColumn ⟨d, false⟩ scope path column arguments grain = .ok f → P f.sql

/-- Dimensions aggregate nothing, and metrics without an aggregation aggregate by themselves. -/
structure AggregatesAsDeclared (m : Model) (d : Dialect) : Prop where
  dimensions : m.EachExpansion d (·.isMetric = false) (embedsAggregate · = false)
  metrics : m.EachExpansion d (fun c => c.isMetric = true ∧ c.aggregation = none)
    (embedsAggregate · = true)

end Model

/-- Text that calls nothing: database columns, and literals without parentheses. -/
def Segment.isPlain : Segment → Bool
  | .literal text => !text.toList.contains '('
  | .reference _ (.physical name) => !name.toList.contains '('
  | _ => false

/-- A literal that calls an aggregate by itself. -/
def Segment.callsAggregate : Segment → Bool
  | .literal text => embedsAggregate text
  | _ => false

/-- Whether a formula shows that it aggregates as its kind says: that of a dimension is plain and so
are its grains, and that of a metric without an aggregation begins with a call. -/
def Column.showsKind (c : Column) : Bool :=
  (Template.parse c.formula).toOption.all fun u =>
    if c.isMetric then c.aggregation.isSome || u.head?.any Segment.callsAggregate
    else u.all Segment.isPlain && c.grains.all (·.formula.isNone)

/-! ## Plain text -/

theorem Dialect.paren_not_mem_quoteName (d : Dialect) {name : String} (h : '(' ∉ name.toList) :
    '(' ∉ (d.quoteName name).toList := by
  have hdelimiters : '(' ≠ d.nameDelimiters.1 ∧ '(' ≠ d.nameDelimiters.2 := by
    cases d <;> decide
  have hdoubled : ∀ {closing : Char} {text : List Char}, '(' ∉ text →
      '(' ∉ Text.doubled closing text := by
    intro closing text htext
    induction text with
    | nil => exact htext
    | cons c text ih =>
      rw [List.mem_cons, not_or] at htext
      rw [Text.doubled]
      split <;> simp [htext.1, ih htext.2]
  rw [quoteName, Text.enclose, String.toList_ofList, List.mem_append, List.mem_cons,
    List.mem_singleton]
  rintro ((hopen | hname) | hclose)
  · exact hdelimiters.1 hopen
  · exact hdoubled h hname
  · exact hdelimiters.2 hclose

namespace Expansion

section

variable {m : Model} {d : Dialect} {scope : Scope m}

/-- A truncated value calls what the value does. -/
theorem embedsAggregate_truncate {g : Grain} {x sql : String} (h : truncate? d g x = some sql) :
    embedsAggregate sql = embedsAggregate x := by
  obtain ⟨t, ht, rfl⟩ := Option.map_eq_some_iff.1 h
  have hfill := Surround.hasAggregateCall_fill (Truncation.isInert_surround ht) x false [] []
  rw [List.nil_append, List.append_nil, hasAggregateCall, hasAggregateCall, Bool.false_or,
    Bool.or_false] at hfill
  rw [Truncation.render_eq_fill]
  exact hfill

theorem Leads.followJoins {t u : m.Member} {path q : JoinPath} {joins : List String}
    (h : Leads t path joins u q) : followJoins t joins = .ok u := by
  induction h with
  | here => rfl
  | @along t u v path q name rest j hjoin htarget _ ih =>
    have hrequire : m.require j.table = .ok u := by
      unfold Model.require
      rw [htarget]
    rw [Rollup.followJoins, hjoin]
    dsimp only
    rw [hrequire]
    exact ih

theorem Leads.names_plain (hnames : m.NamedByIdentifiers) {t u : m.Member} {path q : JoinPath}
    {joins : List String} (h : Leads t path joins u q) (hpath : ∀ name ∈ path, '(' ∉ name.toList) :
    ∀ name ∈ q, '(' ∉ name.toList :=
  h.forall_names
    (fun t ht j hj => Text.paren_not_mem_of_isIdentifier ((hnames t ht).2.1 j hj)) hpath

/-- Plain text stands for plain text. -/
theorem Denotes.paren_not_mem (hnames : m.NamedByIdentifiers) {site : Site m} {u : Template}
    {out : String} {ps : List JoinPath} (h : Denotes ⟨d, false⟩ scope site u out ps)
    (hpath : ∀ name ∈ site.path, '(' ∉ name.toList) (hu : u.all Segment.isPlain = true) :
    '(' ∉ out.toList := by
  induction u generalizing out ps with
  | nil =>
    cases h
    exact List.not_mem_nil
  | cons segment rest ih =>
    rw [List.all_cons, Bool.and_eq_true] at hu
    obtain ⟨hsegment, hu⟩ := hu
    cases h with
    | literal hrest =>
      rw [String.toList_append, List.mem_append, not_or]
      exact ⟨by simpa [Segment.isPlain] using hsegment, ih hrest hu⟩
    | @physical _ _ name _ _ _ _ _ hjoins hrest =>
      have hlabel := paren_not_mem_aliasFor
        (Text.paren_not_mem_of_isIdentifier (hnames _ scope.root.2).1)
        (hjoins.names_plain hnames hpath) d
      have hname : '(' ∉ name.toList := by simpa [Segment.isPlain] using hsegment
      have hdot : '(' ∉ ".".toList := by decide
      simp only [String.toList_append, List.mem_append, not_or]
      exact ⟨⟨⟨d.paren_not_mem_quoteName hlabel, hdot⟩, d.paren_not_mem_quoteName hname⟩,
        ih hrest hu⟩
    | _ => cases hsegment

theorem Denotes.calls_aggregate {site : Site m} {u : Template} {out : String} {ps : List JoinPath}
    (h : Denotes ⟨d, false⟩ scope site u out ps)
    (hu : u.head?.any Segment.callsAggregate = true) : embedsAggregate out = true := by
  cases h with
  | literal hrest =>
    rw [embedsAggregate, String.toList_append]
    exact hasAggregateCall_append hu _
  | done => cases hu
  | _ => cases hu

/-- The text of a column at a grain without a formula of its own calls what it does without one. -/
theorem Grained.embedsAggregate {site : Site m} {c : m.AnyColumn} {grain : Option Grain}
    {base sql : String} {ps : List JoinPath} (h : Grained ⟨d, false⟩ scope site grain base sql ps)
    (hc : site.column = some c) (hgrains : c.1.grains.all (·.formula.isNone) = true) :
    Sql.embedsAggregate sql = Sql.embedsAggregate base := by
  cases h with
  | none => rfl
  | unnamed hnone => rfl
  | truncated _ _ hsql => exact embedsAggregate_truncate hsql
  | formula hcolumn hformula =>
    cases hc.symm.trans hcolumn
    obtain ⟨g, hg, hformula⟩ := Option.bind_eq_some_iff.1 hformula
    have hnone := List.all_eq_true.1 hgrains g (List.mem_of_find?_eq_some hg)
    rw [hformula] at hnone
    cases hnone

end

end Expansion

namespace Model

variable {m : Model} {d : Dialect}

theorem column_of_column? {t : m.Member} {name : String} {c : m.AnyColumn}
    (h : Member.column? t name = some c) : t.1.column? name = some c.1 := by
  unfold Member.column? at h
  split at h
  · rename_i c' hc'
    cases h
    exact hc'
  · cases h

/-- Where grains have no formulas of their own, all texts of a column call an aggregate if what its
formula stands for does. -/
theorem eachExpansion_of_formulas (hnames : m.NamedByIdentifiers) {kind : Column → Prop} {calls : Bool}
    (hgrains : ∀ c ∈ m.columns, kind c → ∀ u, Template.parse c.formula = .ok u →
      c.grains.all (·.formula.isNone) = true)
    (h : ∀ c ∈ m.columns, kind c → ∀ u, Template.parse c.formula = .ok u →
      ∀ (scope : Scope m) (site : Expansion.Site m) out ps, (∀ name ∈ site.path, '(' ∉ name.toList) →
        Expansion.Denotes ⟨d, false⟩ scope site u out ps → embedsAggregate out = calls) :
    m.EachExpansion d kind (embedsAggregate · = calls) := by
  intro scope path column arguments grain t c f ht hc hkind hf
  obtain ⟨_, ⟨t', reached, _, hleads, hexpands, -⟩, -⟩ := Expansion.standsFor_of_expandColumn hf
  cases ht.symm.trans hleads.followJoins
  cases hexpands with
  | @column _ _ _ _ _ _ _ _ _ _ _ k u hcolumn harguments hformula hbase hgrain =>
    cases hc.symm.trans (column_of_column? hcolumn)
    rw [hgrain.embedsAggregate rfl (hgrains k.1 k.2 hkind u hformula)]
    exact h k.1 k.2 hkind u hformula scope _ _ _ (hleads.names_plain hnames nofun) hbase

/-- Formulas that show it aggregate as declared, in every dialect. -/
theorem aggregatesAsDeclared_of_shown (hnames : m.NamedByIdentifiers)
    (hshown : ∀ c ∈ m.columns, c.showsKind = true) (d : Dialect) : m.AggregatesAsDeclared d := by
  have hread : ∀ c ∈ m.columns, ∀ u, Template.parse c.formula = .ok u →
      (if c.isMetric then c.aggregation.isSome || u.head?.any Segment.callsAggregate
        else u.all Segment.isPlain && c.grains.all (·.formula.isNone)) = true := by
    intro c hc u hu
    have hall := hshown c hc
    rwa [Column.showsKind, hu] at hall
  refine ⟨eachExpansion_of_formulas hnames (fun c hc hkind u hu => ?_)
      fun c hc hkind u hu _ _ _ _ hpath h => ?_,
    eachExpansion_of_formulas hnames (fun c _ hkind _ _ => ?_)
      fun c hc hkind u hu _ _ _ _ _ h => ?_⟩
  · have hplain := hread c hc u hu
    rw [hkind, if_neg Bool.false_ne_true, Bool.and_eq_true] at hplain
    exact hplain.2
  · have hplain := hread c hc u hu
    rw [hkind, if_neg Bool.false_ne_true, Bool.and_eq_true] at hplain
    exact hasAggregateCall_of_no_paren (h.paren_not_mem hnames hpath hplain.1) false
  · rw [Column.grains_of_isMetric hkind.1, List.all_nil]
  · have hcalls := hread c hc u hu
    rw [if_pos hkind.1, hkind.2, Option.isSome_none, Bool.false_or] at hcalls
    exact h.calls_aggregate hcalls

end Model

end Rollup
