/-
Metrics that conditions test row by row. Such a metric must not aggregate; this is checked on its text
in DuckDB, expanded on its own, while the statement has its text in another dialect and from the
memory of the plan. A call in any dialect is one in DuckDB, and where the values of a metric's
arguments are told by their text, what is remembered of a metric was found for that metric, so the
statement tests no call either.
-/
import Rollup.Proofs.Compile.Closed
import Rollup.Proofs.Compile.Rendering
import Rollup.Proofs.Expansion.Dialects
import Rollup.Proofs.Expansion.Recall
import Rollup.Proofs.Filter.Groupable

namespace Rollup

open Expansion (Call TellsValues)
open Sql (embedsAggregate)

/-! ## Placing conditions on rows -/

namespace Placement

section

variable {m : Model} {q : Query} {root : m.Member} {origin : Clause}

/-- A metric is placed on the rows only if it does not aggregate. -/
def TestsRow (q : Query) (root : m.Member) (t : Predicate) : Prop :=
  ∃ u c, locate root t.column = .ok (u, c) ∧
    (c.isMetric = true → checkRawMetric q root t = .ok ())

theorem testsRow_of_place {t : Predicate} (h : place q root origin t = .ok .rows) :
    TestsRow q root t := by
  obtain ⟨⟨u, c⟩, hlocate, h⟩ := bind_ok h
  refine ⟨u, c, hlocate, fun hmetric => ?_⟩
  dsimp only at h
  rw [if_pos hmetric] at h
  split at h
  · cases h
  · obtain ⟨⟨⟩, hcheck, -⟩ := bind_ok h
    exact hcheck

theorem testsRow_of_placePart {part : Filter} (h : placePart q root origin part = .ok .rows) :
    ∀ t ∈ part.predicates, TestsRow q root t := by
  obtain ⟨placed, hplaced, h⟩ := bind_ok h
  dsimp only at h
  split at h
  · rename_i hall
    intro t ht
    obtain ⟨⟨t', c⟩, hmem, hplace⟩ := exists_beside (mapM_ok hplaced) ht
    obtain ⟨c', hplace, heq⟩ := map_ok hplace
    cases heq
    obtain rfl : c = .rows := by simpa using List.all_eq_true.1 hall _ hmem
    exact testsRow_of_place hplace
  · obtain ⟨_, -, h⟩ := bind_ok h
    cases h

theorem Placed.testsRow {fs : List Filter} {parts : List (Clause × Filter)}
    (h : Placed q root origin fs parts) {part : Filter} (hpart : (Clause.rows, part) ∈ parts) :
    ∀ t ∈ part.predicates, TestsRow q root t := by
  obtain ⟨f, -, hplace, rfl⟩ := exists_beside h.flip hpart
  exact testsRow_of_placePart hplace

/-- Every metric that a condition on rows of an aggregated query tests was checked. -/
theorem testsRow_of_placed {placement : Placement} (h : Placement.of m q = .ok placement)
    (hroot : m.require q.table = .ok root) (hagg : q.isAggregated = true) :
    ∀ t ∈ Filter.predicatesOf placement.rows, TestsRow q root t := by
  obtain ⟨root', hroot', -, ⟨-, fromRows, fromGroups, hrows, hgroups, rfl⟩ | ⟨hplain, -⟩⟩ :=
    of_cases h
  · cases hroot.symm.trans hroot'
    intro t ht
    dsimp only at ht
    obtain ⟨part, hpart, ht⟩ := (mem_predicatesOf_gather _).1 ht
    rcases List.mem_append.1 hpart with hpart | hpart
    · exact hrows.testsRow hpart t ht
    · exact hgroups.testsRow hpart t ht
  · cases hagg.symm.trans hplain

end

end Placement

/-! ## The memory of a plan -/

namespace Expansion

/-- What is remembered was found for accepted calls in one scope. -/
def RecallsIn {m : Model} (mode : Mode) (scope : Scope m) (memo : Memo) : Prop :=
  ∀ e ∈ memo, ∃ c : Call m, c.scope = scope ∧ c.Accepted ∧ e.1 = c.key ∧ c.expansion mode = .ok e.2

end Expansion

open Expansion (RecallsIn)

theorem Accepted.withGrain {m : Model} {scope : Scope m} {x : Path} (h : Accepted scope x)
    (grain : Option Grain) : Accepted scope { x with grain } :=
  ⟨h.given, h.leads⟩

namespace Plan

section

variable {m : Model} {mode : Mode} {scope : Scope m} {memo memo' : Memo}

/-- A text is what the column of a path comes to with the arguments of the path, or with other
accepted ones that are written alike. -/
def Recalled (mode : Mode) (scope : Scope m) (x : Path) (grain : Option Grain) (sql : String) :
    Prop :=
  ∃ arguments f, Accepted scope { x with arguments } ∧
    arguments.signature none = x.arguments.signature none ∧
    expandColumn mode scope x.joins x.column arguments grain = .ok f ∧ f.sql = sql

theorem resolvePath_recalls {x : Path} {grain : Option Grain} {f : Fragment}
    (hmemo : RecallsIn mode scope memo) (hx : Accepted scope x)
    (h : (resolvePath mode scope x grain).run memo = .ok (f, memo')) :
    RecallsIn mode scope memo' ∧ Recalled mode scope x grain f.sql := by
  rcases resolveColumn_cases h with ⟨hfound, rfl⟩ | ⟨-, hf, rfl⟩
  · obtain ⟨before, after, hmem, -⟩ := List.lookup_eq_some_iff.1 hfound
    obtain ⟨⟨_, y⟩, rfl, hy, hkey, hf⟩ := hmemo (_, f)
      (hmem ▸ List.mem_append_right _ List.mem_cons_self)
    simp only [Call.key, expansionKey, MemoKey.mk.injEq] at hkey
    obtain ⟨-, -, hjoins, hcolumn, hsignature, hgrain⟩ := hkey
    refine ⟨hmemo, y.arguments, f, ?_, hsignature.symm, ?_, rfl⟩
    · obtain ⟨hgiven, hleads⟩ := hy
      rw [← hjoins, ← hcolumn] at hleads
      exact ⟨hgiven, hleads⟩
    · rw [hjoins, hcolumn, hgrain]
      exact hf
  · refine ⟨fun e he => ?_, x.arguments, f, hx, rfl, hf, rfl⟩
    rcases List.mem_cons.1 he with rfl | he
    · exact ⟨⟨scope, { x with grain }⟩, rfl, hx.withGrain grain, rfl, hf⟩
    · exact hmemo e he

theorem outputsOf_recalls {taken : List String} {xs : List Projection} {os : List Output}
    {joins : List JoinPath} (hmemo : RecallsIn mode scope memo)
    (hxs : ∀ x ∈ xs, Accepted scope x.path)
    (h : (outputsOf mode scope taken xs).run memo = .ok ((os, joins), memo')) :
    RecallsIn mode scope memo' := by
  induction xs generalizing taken memo os joins with
  | nil =>
    cases h
    exact hmemo
  | cons x xs ih =>
    obtain ⟨hx, hxs⟩ := List.forall_mem_cons.1 hxs
    unfold outputsOf at h
    obtain ⟨⟨o, first⟩, memo₁, ho, h⟩ := run_bind_ok h
    obtain ⟨⟨os', more⟩, memo₂, hos, h⟩ := run_bind_ok h
    cases h
    obtain ⟨t, c, f, -, hf, -⟩ := outputOf_run ho
    exact ih (resolvePath_recalls hmemo hx hf).1 hxs hos

/-- The hidden metrics have the aggregations of their columns. -/
theorem hiddenOf_recalls {known ss : List Metric} {ts : List Predicate} {joins : List JoinPath}
    (hmemo : RecallsIn mode scope memo) (hts : ∀ t ∈ ts, Accepted scope t.column)
    (h : (hiddenOf mode scope known ts).run memo = .ok ((ss, joins), memo')) :
    RecallsIn mode scope memo' ∧ ∀ s ∈ ss, ∃ u c, locate scope.root s.path = .ok (u, c) ∧
      c.isMetric = true ∧ s.aggregation = c.aggregation := by
  induction ts generalizing known ss joins memo with
  | nil =>
    cases h
    exact ⟨hmemo, fun s hs => (List.not_mem_nil hs).elim⟩
  | cons t ts ih =>
    obtain ⟨ht, hts⟩ := List.forall_mem_cons.1 hts
    unfold hiddenOf at h
    obtain ⟨⟨u, c⟩, _, hlift, h⟩ := run_bind_ok h
    obtain ⟨_, hlocate, hlift⟩ := bind_ok hlift
    cases hlift
    dsimp only at h
    split at h
    · exact ih hmemo hts h
    · rename_i hnew
      obtain ⟨f, memo₁, hf, h⟩ := run_bind_ok h
      obtain ⟨⟨rest, more⟩, memo₂, hrest, h⟩ := run_bind_ok h
      cases h
      obtain ⟨hmemo', hall⟩ := ih (resolvePath_recalls hmemo ht hf).1 hts hrest
      refine ⟨hmemo', List.forall_mem_cons.2 ⟨⟨u, c, hlocate, ?_, rfl⟩, hall⟩⟩
      rw [Bool.or_eq_true, not_or] at hnew
      simpa using hnew.1

theorem rowColumnsOf_recalls {known found : List (Path × String)} {ts : List Predicate}
    {joins : List JoinPath} (hmemo : RecallsIn mode scope memo)
    (hts : ∀ t ∈ ts, Accepted scope t.column)
    (h : (rowColumnsOf mode scope known ts).run memo = .ok ((found, joins), memo')) :
    ∀ e ∈ found, e ∈ known ∨ (∃ t ∈ ts, e.1 = t.column) ∧ Recalled mode scope e.1 e.1.grain e.2 := by
  induction ts generalizing known found joins memo with
  | nil =>
    cases h
    exact fun e he => .inl he
  | cons t ts ih =>
    obtain ⟨ht, hts⟩ := List.forall_mem_cons.1 hts
    unfold rowColumnsOf at h
    split at h
    · refine fun e he => (ih hmemo hts h e he).imp_right ?_
      rintro ⟨⟨t', ht', hpath⟩, hsql⟩
      exact ⟨⟨t', List.mem_cons_of_mem _ ht', hpath⟩, hsql⟩
    · obtain ⟨f, memo₁, hf, h⟩ := run_bind_ok h
      obtain ⟨⟨found', more⟩, memo₂, hrest, h⟩ := run_bind_ok h
      cases h
      obtain ⟨hmemo₁, hsql⟩ := resolvePath_recalls hmemo ht hf
      intro e he
      rcases ih hmemo₁ hts hrest e he with hknown | ⟨⟨t', ht', hpath⟩, hsql'⟩
      · rcases List.mem_append.1 hknown with hknown | hnew
        · exact .inl hknown
        · rw [List.mem_singleton.1 hnew]
          exact .inr ⟨⟨t, List.mem_cons_self, rfl⟩, hsql⟩
      · exact .inr ⟨⟨t', List.mem_cons_of_mem _ ht', hpath⟩, hsql'⟩

/-! ## Metrics of a plan -/

variable {d : Dialect} {r : Request} {q : Query} {root : m.Member} {p : Plan}

/-- What is known of a plan for an accepted query: which metrics only conditions on groups read, and
what the columns of the conditions on rows come to. -/
theorem recalled_of_build (hquery : Query.build m r = .ok q) (hroot : m.require q.table = .ok root)
    (h : build m d q = .ok p) :
    (∀ s ∈ p.hidden, ∃ u c, locate root s.path = .ok (u, c) ∧ c.isMetric = true ∧
      s.aggregation = c.aggregation) ∧
    ∀ e ∈ p.rowColumns, (∃ t ∈ Filter.predicatesOf p.filters.rows, e.1 = t.column) ∧
      Recalled ⟨d, false⟩ (Scope.of root q.arguments) e.1 e.1.grain e.2 := by
  obtain ⟨root', hroot', hprojections, htests⟩ := Query.accepted_of_build hquery
  cases hroot.symm.trans hroot'
  obtain ⟨filters, root', required, hplaced, hroot', hp, -⟩ := build_drafted h
  cases hroot.symm.trans hroot'
  obtain ⟨_, _, _, _, _, _, _, _, houtputs, hhidden, hrows, -, -⟩ := hp.runs
  have hfilters : p.filters = filters := hp.filters_eq
  subst hfilters
  have hpredicates : ∀ t ∈ Filter.predicatesOf p.filters.rows ++
      Filter.predicatesOf p.filters.groups, Accepted (Scope.of root q.arguments) t.column := by
    intro t ht
    have htests' := mem_predicates hplaced ht
    rw [Filter.predicatesOf, Filter.predicatesOf, ← List.flatMap_append, List.mem_flatMap] at htests'
    obtain ⟨f, hf, ht⟩ := htests'
    exact htests f hf t ht
  obtain ⟨hrowTests, hgroupTests⟩ := List.forall_mem_append.1 hpredicates
  have hnone : RecallsIn ⟨d, false⟩ (Scope.of root q.arguments) [] := fun _ he => by cases he
  have hmemo := outputsOf_recalls hnone hprojections houtputs
  obtain ⟨hmemo, hdeclared⟩ := hiddenOf_recalls hmemo hgroupTests hhidden
  refine ⟨hdeclared, fun e he => ?_⟩
  exact (rowColumnsOf_recalls hmemo hrowTests hrows e he).resolve_left List.not_mem_nil

/-- A metric that a condition on rows tests calls no aggregate, if its arguments are told by the text
of their values. -/
theorem rowColumn_calls_none (hquery : Query.build m r = .ok q) (hagg : q.isAggregated = true)
    (hroot : m.require q.table = .ok root) (h : build m d q = .ok p)
    (htells : ∀ c ∈ m.columns, c.isMetric = true → TellsValues .empty c.parameters) :
    ∀ e ∈ p.rowColumns, ∃ u c, locate root e.1 = .ok (u, c) ∧
      (c.isMetric = true → embedsAggregate e.2 = false) := by
  intro e he
  obtain ⟨⟨t, ht, hpath⟩, arguments, f, haccepted, hsignature, hf, hsql⟩ :=
    (recalled_of_build hquery hroot h).2 e he
  obtain ⟨u, c, hlocate, hraw⟩ := Placement.testsRow_of_placed (build_ok h).2 hroot hagg t ht
  rw [hpath] at haccepted hsignature hf ⊢
  refine ⟨u, c, hlocate, fun hmetric => ?_⟩
  obtain ⟨f', hf', hquiet⟩ := Placement.checkRawMetric_ok_iff.1 (hraw hmetric)
  obtain ⟨hu, hc⟩ := locate_ok hlocate
  -- metrics have no grains
  have hgrain : t.column.grain = none := grain_of_locate hlocate hmetric
  obtain ⟨u', c', hu', hc', hchecked⟩ := haccepted.leads
  cases hu.symm.trans hu'
  cases hc.symm.trans hc'
  have hmem : c ∈ m.columns := List.mem_flatMap.2 ⟨u.1, u.2, List.mem_of_find?_eq_some hc⟩
  have hsame := htells c hmem hmetric arguments t.column.arguments hchecked
    (checked_of_locate hlocate)
  have hempty : ∀ a : Arguments, Arguments.empty.overlay a = a := Arguments.ofList_entries
  rw [hempty, hempty] at hsame
  rw [hsame hsignature, hgrain] at hf
  rw [← hsql]
  refine Bool.eq_false_iff.2 fun hcall => Bool.eq_false_iff.1 hquiet ?_
  exact Expansion.expandColumn_embedsAggregate (Expansion.comparable_duckdb m) hf hf' hcall

end

end Plan

end Rollup
