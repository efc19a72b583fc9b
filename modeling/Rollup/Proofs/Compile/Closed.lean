/-
Every table that a statement names is one that it reads. A column is expanded with the joins it
walks, and these are required; the planned joins are closed under what is required and under what
ON conditions walk, and of the joins with one alias one is kept, so the alias of every table that is
walked to is that of the root or of a join. The joins come after what they need, so an ON condition
names the root, its own join and earlier ones.
-/
import Rollup.Proofs.Compile.Aliases
import Rollup.Proofs.Compile.Nesting
import Rollup.Proofs.Compile.Texts

namespace Rollup

open Expansion Sql

namespace JoinPlan

/-! ## Aliases that are kept -/

/-- The aliases of all joins are taken before or kept. -/
theorem label_kept {taken : List String} {all : List PlannedJoin} :
    ∀ j ∈ all, j.label ∈ taken ∨ j.label ∈ (distinctAliases taken all).map (·.label) := by
  induction all generalizing taken with
  | nil => exact fun j hj => (List.not_mem_nil hj).elim
  | cons k rest ih =>
    intro j hj
    rw [distinctAliases]
    split
    · rename_i htaken
      rcases List.mem_cons.1 hj with rfl | hj
      · exact .inl (List.contains_iff_mem.1 htaken)
      · exact ih j hj
    · rw [List.map_cons, List.mem_cons]
      rcases List.mem_cons.1 hj with rfl | hj
      · exact .inr (.inl rfl)
      · have hrest : j.label ∈ k.label :: taken ∨ _ := ih j hj
        rwa [List.mem_cons, or_assoc, or_left_comm] at hrest

/-- The aliases of the joins before a kept one are taken before or kept before it. -/
theorem exists_split_of_kept {taken : List String} {all before after : List PlannedJoin}
    {j : PlannedJoin} (h : distinctAliases taken all = before ++ j :: after) :
    ∃ before' after', all = before' ++ j :: after' ∧
      ∀ k ∈ before', k.label ∈ taken ∨ k.label ∈ before.map (·.label) := by
  induction all generalizing taken before with
  | nil => exact absurd h (by simp [distinctAliases])
  | cons k rest ih =>
    rw [distinctAliases] at h
    split at h
    · rename_i htaken
      obtain ⟨before', after', rfl, hbefore⟩ := ih h
      refine ⟨k :: before', after', rfl, List.forall_mem_cons.2 ⟨?_, hbefore⟩⟩
      exact .inl (List.contains_iff_mem.1 htaken)
    · cases before with
      | nil =>
        cases h
        exact ⟨[], rest, rfl, fun k hk => (List.not_mem_nil hk).elim⟩
      | cons first before =>
        obtain ⟨rfl, hrest⟩ := List.cons.inj h
        obtain ⟨before', after', rfl, hbefore⟩ := ih hrest
        refine ⟨k :: before', after', rfl, List.forall_mem_cons.2 ⟨?_, fun l hl => ?_⟩⟩
        · exact .inr List.mem_cons_self
        · have hl := hbefore l hl
          rwa [List.mem_cons, or_assoc, or_left_comm, ← List.mem_cons, ← List.map_cons] at hl

section

variable {m : Model} {mode : Mode} {scope : Scope m} {required : List JoinPath}
  {joins : List PlannedJoin}

/-- In an order that comes after what it needs, what a path needs is before it. -/
theorem Legal.needs_before {before first rest : List JoinPath} {p q : JoinPath}
    (h : Legal mode scope before (first ++ p :: rest)) (hq : Needs mode scope p q) :
    q ∈ before ∨ q ∈ first := by
  induction first generalizing before with
  | nil =>
    cases h with | cons hfree _ => exact .inl (hfree q hq)
  | cons r first ih =>
    cases h with | cons _ hrest =>
    rcases ih hrest with hbefore | hfirst
    · rcases List.mem_cons.1 hbefore with rfl | hbefore
      · exact .inr List.mem_cons_self
      · exact .inl hbefore
    · exact .inr (List.mem_cons_of_mem _ hfirst)

/-! ## Tables that are named -/

/-- The tables at the ends of some paths go by some of these aliases. -/
def Named (mode : Mode) (scope : Scope m) (labels : List String) (paths : List JoinPath) : Prop :=
  ∀ q ∈ paths, aliasFor mode.dialect scope.root.1 q ∈ labels

theorem of?_of_ok (h : of mode scope required = .ok joins) :
    of? mode scope required = some (.ok joins) := by
  unfold of at h
  cases hplan : of? mode scope required with
  | none =>
    rw [hplan] at h
    cases h
  | some r =>
    rw [hplan] at h
    exact congrArg some h

/-- The alias of every planned table is that of the root or of a join. -/
theorem alias_of_planned (hplan : of? mode scope required = some (.ok joins)) {p : JoinPath}
    (hp : Planned mode scope required p) :
    aliasFor mode.dialect scope.root.1 p ∈
      aliasFor mode.dialect scope.root.1 [] :: joins.map (·.label) := by
  rcases hp with rfl | hp
  · exact List.mem_cons_self
  · obtain ⟨order, all, harranges, -, hall, rfl⟩ := of?_ok hplan
    obtain ⟨j, hj, _, _, _, -, -, -, -, hlabel, -⟩ :=
      exists_beside hall ((harranges.mem p).2 hp)
    rw [← hlabel]
    exact List.mem_cons_of_mem _ ((label_kept j hj).resolve_left List.not_mem_nil)

/-- A planned join is that of some path, and what this path needs has the aliases of joins before. -/
theorem join_of_split {before after : List PlannedJoin} {j : PlannedJoin}
    (hplan : of? mode scope required = some (.ok (before ++ j :: after))) :
    ∃ p, JoinOf mode scope p j ∧ ∀ q, Needs mode scope p q →
      aliasFor mode.dialect scope.root.1 q ∈ before.map (·.label) := by
  obtain ⟨order, all, harranges, -, hall, hkept⟩ := of?_ok hplan
  obtain ⟨before', after', rfl, hbefore⟩ := exists_split_of_kept hkept.symm
  -- the order is cut where the joins are
  have hfirst := List.forall₂_take_append order before' (j :: after') hall
  have hrest := List.forall₂_drop_append order before' (j :: after') hall
  have horder := List.take_append_drop before'.length order
  generalize order.take before'.length = first at hfirst horder
  generalize order.drop before'.length = rest at hrest horder
  cases hrest with | @cons p _ rest _ hjoin _ =>
  refine ⟨p, hjoin, fun q hq => ?_⟩
  have hlegal := harranges.legal
  rw [← horder] at hlegal
  have hq := (hlegal.needs_before hq).resolve_left List.not_mem_nil
  obtain ⟨k, hk, _, _, _, -, -, -, -, hlabel, -⟩ := exists_beside hfirst hq
  rw [← hlabel]
  exact (hbefore k hk).resolve_left List.not_mem_nil

/-- An ON condition names the root, its own join and joins before it. -/
theorem named_of_condition {before after : List PlannedJoin} {j : PlannedJoin} {sql : String}
    (hplan : of? mode scope required = some (.ok (before ++ j :: after)))
    (hon : j.on = some sql) : ∃ p walked, j.label = aliasFor mode.dialect scope.root.1 p ∧
      Condition mode scope p sql walked ∧
      Named mode scope
        (aliasFor mode.dialect scope.root.1 [] :: before.map (·.label) ++ [j.label]) walked := by
  obtain ⟨p, ⟨t, k, target, hdeclared, htable, -, -, hlabel, hcross, hcondition⟩, hneeds⟩ :=
    join_of_split hplan
  have hkind : k.kind ≠ .cross := fun hkind => by
    rw [hcross hkind] at hon
    cases hon
  obtain ⟨sql', walked, hcondition, hon'⟩ := hcondition hkind
  cases hon.symm.trans hon'
  refine ⟨p, walked, hlabel, hcondition, fun q hq => ?_⟩
  by_cases hroot : q = []
  · rw [hroot]
    exact List.mem_append_left _ List.mem_cons_self
  by_cases hself : q = p
  · rw [hself, hlabel]
    exact List.mem_append_right _ (List.mem_singleton_self _)
  · have hread : Reads mode scope p q := ⟨hroot, _, _, hcondition, q, hq, List.prefix_refl q⟩
    refine List.mem_append_left _ (List.mem_cons_of_mem _ (hneeds q ?_))
    exact ⟨hroot, hself, .inr hread⟩

end

end JoinPlan

/-! ## Columns that are read -/

/-- The columns a query reads, each with the grain it is read at: those it projects, those its
conditions test, and those that metrics among them are nested by. -/
inductive Query.Wants {m : Model} (q : Query) (root : m.Member) : Path → Option Grain → Prop
  | projected {x} (hx : x ∈ q.projections) : Wants q root x.path x.path.grain
  | tested {t grain}
    (ht : t ∈ Filter.predicatesOf q.whereFilter ++ Filter.predicatesOf q.havingFilter)
    (hgrain : grain = t.column.grain ∨ grain = none) : Wants q root t.column grain
  | nested {s grain x} (hs : Wants q root s grain) (hx : Plan.Nests root s x) :
    Wants q root x x.grain

namespace Plan

variable {m : Model} {d : Dialect} {q : Query} {root : m.Member} {required : List JoinPath}
  {p : Plan}

theorem mem_predicates (hplaced : Placement.of m q = .ok p.filters) {t : Predicate}
    (ht : t ∈ Filter.predicatesOf p.filters.rows ++ Filter.predicatesOf p.filters.groups) :
    t ∈ Filter.predicatesOf q.whereFilter ++ Filter.predicatesOf q.havingFilter := by
  rw [← Placement.predicates_normal]
  exact (Placement.predicates_of_placed hplaced).1.subset ht

/-- A text of a plan is that of a column that the query reads. -/
def TextOf (d : Dialect) (q : Query) (root : m.Member) (required : List JoinPath) (sql : String) :
    Prop :=
  ∃ x grain, q.Wants root x grain ∧
    Sourced ⟨d, false⟩ (Scope.of root q.arguments) required x grain sql

theorem Holds.metric (h : Holds d q root required p)
    (hplaced : Placement.of m q = .ok p.filters) {s : Metric} (hs : s ∈ p.metrics) :
    ∃ grain, q.Wants root s.path grain ∧
      Sourced ⟨d, false⟩ (Scope.of root q.arguments) required s.path grain s.sql := by
  rcases List.mem_append.1 hs with hs | hs
  · obtain ⟨o, ho, hs⟩ := mem_projectedMetrics.1 hs
    obtain ⟨x, hx, t, c, sql, -, hsql, rfl⟩ := exists_beside h.outputs.flip ho
    by_cases hrole : (x.role == .metric) = true
    · rw [Projection.output, if_pos hrole] at hs
      cases hs
      exact ⟨_, .projected hx, hsql⟩
    · rw [Projection.output, if_neg hrole] at hs
      cases hs
  · obtain ⟨t, ht, hpath, hsql⟩ := h.hidden s hs
    rw [hpath] at hsql ⊢
    exact ⟨none, .tested (mem_predicates hplaced (List.mem_append_right _ ht)) (.inr rfl), hsql⟩

theorem Holds.textOf (h : Holds d q root required p) (hplaced : Placement.of m q = .ok p.filters)
    {sql : String} (hsql : sql ∈ p.tableTexts) :
    sql ∈ fixedTexts ∨ TextOf d q root required sql := by
  refine (mem_tableTexts.1 hsql).imp_right ?_
  rintro (⟨g, hg, rfl⟩ | ⟨s, hs, rfl⟩ | ⟨g, hg, rfl⟩ | ⟨e, he, rfl⟩)
  · obtain ⟨o, ho, hg⟩ := mem_groupings.1 hg
    obtain ⟨x, hx, t, c, sql, -, hsourced, rfl⟩ := exists_beside h.outputs.flip ho
    by_cases hrole : (x.role == .metric) = true
    · rw [Projection.output, if_pos hrole] at hg
      cases hg
    · rw [Projection.output, if_neg hrole] at hg
      cases hg
      exact ⟨_, _, .projected hx, hsourced⟩
  · obtain ⟨grain, hwants, hsql⟩ := h.metric hplaced hs
    exact ⟨_, grain, hwants, hsql⟩
  · by_cases hnested : p.nested = true
    · obtain ⟨x, ⟨s, hs, hx⟩, -, -, hsql⟩ := (h.nests hnested).sourced g hg
      obtain ⟨grain, hwants, -⟩ := h.metric hplaced (List.mem_of_mem_filter hs)
      exact ⟨x, x.grain, hwants.nested hx, hsql⟩
    · rw [h.flat (by simpa using hnested)] at hg
      cases hg
  · obtain ⟨⟨t, ht, hpath⟩, hsql⟩ := h.rowColumns e he
    rw [hpath] at hsql
    exact ⟨_, _, .tested (mem_predicates hplaced (List.mem_append_left _ ht)) (.inl rfl), hsql⟩

end Plan

/-! ## Closed statements -/

/-- A text is what a column that the query reads stands for, with the arguments of its path or others
that are written alike, and the tables it names go by some of these aliases. -/
def Query.Reads {m : Model} (q : Query) (mode : Mode) (scope : Scope m) (labels : List String)
    (sql : String) : Prop :=
  ∃ x grain arguments walked, q.Wants scope.root x grain ∧
    arguments.signature none = x.arguments.signature none ∧
    StandsFor mode scope x.joins x.column arguments grain sql walked ∧
    JoinPlan.Named mode scope labels walked

namespace Sql.Select

/-- The aliases of what a statement reads from. -/
def labels (s : Select) : List String :=
  s.source.toList.filterMap (·.label) ++ s.joins.filterMap (·.source.label)

/-- The texts of columns name tables that the statement reads, and the texts of ON conditions the
first table and those joined so far. -/
structure Closed {m : Model} (mode : Mode) (scope : Scope m) (q : Query) (s : Select) : Prop where
  clauses : ∀ e ∈ s.exprs, ∀ sql, Token.raw sql ∈ e.tokens →
    sql ∈ fixedTexts ∨ q.Reads mode scope s.labels sql
  joins : ∀ before j after, s.joins = before ++ j :: after → ∀ e ∈ j.on, ∀ sql,
    Token.raw sql ∈ e.tokens → ∃ p walked,
      j.source.label = some (aliasFor mode.dialect scope.root.1 p) ∧
      JoinPlan.Condition mode scope p sql walked ∧
      JoinPlan.Named mode scope { s with joins := before ++ [j] }.labels walked

end Sql.Select

/-- A statement is written from one in which every statement names only tables that it reads; the
innermost reads the table and the planned joins. -/
def Statement.Closed {m : Model} (st : Statement) (x : Binding Select) (mode : Mode)
    (scope : Scope m) (q : Query) (joins : List PlannedJoin) : Prop :=
  ∃ s, x.run [] = .ok (s, st.params) ∧ st.sql = s.render mode.dialect ∧
    (∀ r : Select, r.Within s → r.Closed mode scope q) ∧
    ∃ r : Select, r.Within s ∧
      r.source = some (Plan.sourceOf scope.root.1 (aliasFor mode.dialect scope.root.1 [])) ∧
      r.joins = joins.map Plan.joinedOf

section

variable {m : Model} {d : Dialect} {q : Query} {root : m.Member} {required : List JoinPath}
  {p : Plan}

theorem labels_joinedOf (joins : List PlannedJoin) :
    (joins.map Plan.joinedOf).filterMap (·.source.label) = joins.map (·.label) := by
  induction joins with
  | nil => rfl
  | cons j joins ih => exact congrArg (j.label :: ·) ih

theorem Plan.ReadsQuery.closed {s t : Select} (h : Plan.ReadsQuery s t) :
    s.Closed ⟨d, false⟩ (Scope.of root q.arguments) q where
  clauses e he sql hsql := .inl (h.texts e he sql hsql)
  joins before j after hsplit := by
    rw [h.joins] at hsplit
    exact absurd hsplit (by simp)

theorem Plan.ReadsTable.closed (hp : Plan.Holds d q root required p)
    (hplaced : Placement.of m q = .ok p.filters)
    (hjoins : JoinPlan.of? ⟨d, false⟩ (Scope.of root q.arguments) required = some (.ok p.joins))
    {s : Select} (h : p.ReadsTable s) : s.Closed ⟨d, false⟩ (Scope.of root q.arguments) q := by
  have hroot : s.source.toList.filterMap (·.label) = [aliasFor d root.1 []] := by
    rw [h.source, hp.rootAlias_eq]
    rfl
  refine ⟨fun e he sql hsql => ?_, fun before j after hsplit e he sql hsql => ?_⟩
  · refine (hp.textOf hplaced (h.texts e he sql hsql)).imp_right ?_
    rintro ⟨x, grain, hwants, arguments, f, hsignature, hf, rfl, hrequired⟩
    obtain ⟨walked, hstands, hwalked⟩ := standsFor_of_expandColumn hf
    refine ⟨x, grain, arguments, walked, hwants, hsignature, hstands, fun r hr => ?_⟩
    have hplanned : JoinPlan.Planned ⟨d, false⟩ (Scope.of root q.arguments) required r := by
      rcases hwalked r hr with rfl | hr
      · exact .inl rfl
      · exact JoinPlan.planned_of_mem (hrequired r hr)
    rw [Select.labels, hroot, h.joins, labels_joinedOf]
    exact JoinPlan.alias_of_planned hjoins hplanned
  · rw [h.joins] at hsplit
    obtain ⟨first, rest, hall, rfl, hrest⟩ := List.map_eq_append_iff.1 hsplit
    obtain ⟨k, last, rfl, rfl, rfl⟩ := List.map_eq_cons_iff.1 hrest
    obtain ⟨on, hon, rfl⟩ := Option.map_eq_some_iff.1 he
    obtain rfl : sql = on := by simpa [Expr.tokens] using hsql
    rw [hall] at hjoins
    obtain ⟨path, walked, hlabel, hcondition, hnamed⟩ := JoinPlan.named_of_condition hjoins hon
    refine ⟨path, walked, congrArg some hlabel, hcondition, ?_⟩
    have hsofar : first.map Plan.joinedOf ++ [Plan.joinedOf k] =
        (first ++ [k]).map Plan.joinedOf := by
      rw [List.map_append, List.map_singleton]
    rw [Select.labels, hroot, hsofar, labels_joinedOf, List.map_append]
    exact hnamed

/-- Compiled statements are closed. In every statement, the main one, the one that counts, and those
inside them, the tables that the texts of columns name are tables it reads; for the one that reads
the table these are the root and the planned joins. An ON condition names the root, its own join and
joins before it. -/
theorem compile_closed {c : Compiled} (h : compile m d q = .ok c) :
    ∃ root p, m.require q.table = .ok root ∧ Plan.build m d q = .ok p ∧
      c.main.Closed p.main ⟨d, false⟩ (Scope.of root q.arguments) q p.joins ∧
      ∀ st ∈ c.count, st.Closed p.countSelect ⟨d, false⟩ (Scope.of root q.arguments) q p.joins := by
  obtain ⟨p, hbuild, hcompile⟩ := bind_ok h
  obtain ⟨root, required, hroot, hp, hjoins⟩ := Plan.build_holds hbuild
  obtain ⟨rfl, hplaced⟩ := Plan.build_ok hbuild
  have hjoins := JoinPlan.of?_of_ok hjoins
  have hclosed : ∀ (st : Statement) (x : Binding Select),
      (∀ s params, x.run [] = .ok (s, params) → p.Layered s) →
      Plan.statement p.dialect x = .ok st →
      st.Closed x ⟨p.dialect, false⟩ (Scope.of root q.arguments) q p.joins := by
    intro st x hlayered hst
    obtain ⟨s, params, hrun, rfl⟩ := Plan.statement_ok hst
    obtain ⟨hall, r, hr, htable⟩ := hlayered s params hrun
    refine ⟨s, hrun, rfl, fun r hr => ?_, r, hr, ?_, htable.joins⟩
    · rcases hall r hr with htable | ⟨t, hquery⟩
      · exact htable.closed hp hplaced hjoins
      · exact hquery.closed
    · have hsource := htable.source
      rwa [hp.root_eq, hp.rootAlias_eq] at hsource
  obtain ⟨hmain, hcount⟩ := Plan.compile_ok hcompile
  refine ⟨root, p, hroot, hbuild, ?_, fun st hst => ?_⟩
  · exact hclosed _ _ (fun s params => Plan.layered_main) hmain
  · exact hclosed _ _ (fun s params => Plan.layered_countSelect) (hcount st hst)

end

/-- Cities with the names of their countries, and how many people live there. -/
def namedCities : Table :=
  { JoinPlan.cities with
    columns := [
      { name := "country_name", formula := "\x7b\x7bcountry.$name\x7d\x7d", kind := .dimension },
      { name := "inhabitants", formula := "\x7b\x7b$inhabitants\x7d\x7d", valueType := .integer
        kind := .metric (some .sum) [] }] }

/-- Cities with names, countries and regions. -/
def gazetteer : Model where
  tables := [namedCities, JoinPlan.countries, JoinPlan.regions]

/-- The cities of the gazetteer. -/
def gazetteerCities : gazetteer.Member := ⟨namedCities, List.mem_cons_self⟩

/-- The people of each country, and how many countries there are. -/
def inhabitants : Query where
  table := "cities"
  arguments := .empty
  projections := [⟨{ column := "country_name" }, .dimension, "country_name"⟩,
    ⟨{ column := "inhabitants" }, .metric, "inhabitants"⟩]
  whereFilter := none
  havingFilter := some (.test ⟨{ column := "inhabitants" }, .compare .gt, [.int 1000]⟩)
  sorting := [⟨"inhabitants", .desc⟩]
  pagination := some { limit := some 5, wantTotal := true }
  bypassCache := false

/-- The country is read through, and its condition reads through the region. -/
theorem of_gazetteer :
    JoinPlan.of ⟨.postgres, false⟩ (Scope.of gazetteerCities .empty) [["country"]] =
      .ok [JoinPlan.joinRegion, JoinPlan.joinCountry] := by
  let first : JoinNode := ⟨["country"], [0], [["region"]], JoinPlan.joinCountry⟩
  let second : JoinNode := ⟨["region"], [1], [], JoinPlan.joinRegion⟩
  have hfirst : JoinPlan.closeStep ⟨.postgres, false⟩ (Scope.of gazetteerCities .empty) ["country"]
      [] [] = .ok ([["region"]], [first]) := by decide +kernel
  have hsecond : JoinPlan.closeStep ⟨.postgres, false⟩ (Scope.of gazetteerCities .empty) ["region"]
      [] [first] = .ok ([], [first, second]) := by decide +kernel
  have hclose := (JoinPlan.close_eq_some_iff (s := ([["country"]], []))).2
    ⟨_, .head (.take hfirst) (.single (.take hsecond)), .found _⟩
  rw [JoinPlan.of, JoinPlan.of?, hclose]
  rfl

/-- The country is named by the select list, the groups and an ON condition; the region by that
condition alone, and it is joined first. -/
theorem compile_closed_inhabitants :
    Model.build gazetteer.tables = .ok gazetteer ∧
    ∃ c p st, compile gazetteer .postgres inhabitants = .ok c ∧
      Plan.build gazetteer .postgres inhabitants = .ok p ∧
      p.joins = [JoinPlan.joinRegion, JoinPlan.joinCountry] ∧
      c.main.Closed p.main ⟨.postgres, false⟩ (Scope.of gazetteerCities .empty) inhabitants
        [JoinPlan.joinRegion, JoinPlan.joinCountry] ∧
      c.count = some st ∧
      st.Closed p.countSelect ⟨.postgres, false⟩ (Scope.of gazetteerCities .empty) inhabitants
        [JoinPlan.joinRegion, JoinPlan.joinCountry] := by
  let filters : Placement := ⟨none, inhabitants.havingFilter⟩
  have hfilters : Placement.of gazetteer inhabitants = .ok filters := by decide +kernel
  have hdraft : ((Plan.draft .postgres inhabitants gazetteerCities filters).run' []).map (fun r =>
      (r.2, (Plan.compile { r.1 with
        joins := [JoinPlan.joinRegion, JoinPlan.joinCountry] }).toOption.map (·.count.isSome))) =
      .ok ([["country"]], some true) := by
    decide +kernel
  obtain ⟨⟨p, required⟩, hrun, hp⟩ := map_ok hdraft
  simp only [Prod.mk.injEq] at hp
  obtain ⟨rfl, hcount⟩ := hp
  have hbuild := Plan.build_of_joins hfilters rfl hrun of_gazetteer
  obtain ⟨c, hc, hsome⟩ := Option.map_eq_some_iff.1 hcount
  have hcompile : compile gazetteer .postgres inhabitants = .ok c :=
    (compile_of_build hbuild).trans (ok_of_toOption hc)
  obtain ⟨st, hst⟩ := Option.isSome_iff_exists.1 hsome
  obtain ⟨root, p', hroot, hbuild', hmain, hcounts⟩ := compile_closed hcompile
  cases hbuild.symm.trans hbuild'
  cases hroot
  exact ⟨by decide +kernel, c, _, st, hcompile, hbuild, rfl, hmain, hst, hcounts st hst⟩

end Rollup
