/-
Where the texts of a plan come from. Each is what a column that the query reads comes to, perhaps
remembered from an expansion with the same key, and the joins it reads through are among those the
plan requires. Projections, conditions on groups, conditions on rows and nestings are looked at one
after the other, with one memory.
-/
import Rollup.Proofs.Compile.Outputs
import Rollup.Proofs.Expansion.Memory
import Rollup.Proofs.Filter.Placement

namespace Rollup

namespace Plan

section

variable {m : Model} (mode : Mode) (scope : Scope m)

/-- A text is what the column of a path comes to at a grain, with the arguments of the path or others
that are written alike, and the joins it reads through are required. -/
def Sourced (required : List JoinPath) (x : Path) (grain : Option Grain) (sql : String) : Prop :=
  ∃ arguments f, arguments.signature none = x.arguments.signature none ∧
    expandColumn mode scope x.joins x.column arguments grain = .ok f ∧ f.sql = sql ∧
    ∀ q ∈ f.joins, q ∈ required

/-- What is remembered of the expansions of one plan. -/
abbrev Memory (memo : Memo) : Prop :=
  Remembers mode (fun scope' _ => scope' = scope) memo

variable {mode scope} {memo memo' : Memo}

theorem Sourced.mono {required more : List JoinPath} {x : Path} {grain : Option Grain}
    {sql : String} (h : Sourced mode scope required x grain sql)
    (hsub : ∀ q ∈ required, q ∈ more) : Sourced mode scope more x grain sql := by
  obtain ⟨arguments, f, hsignature, hf, hsql, hjoins⟩ := h
  exact ⟨arguments, f, hsignature, hf, hsql, fun q hq => hsub q (hjoins q hq)⟩

theorem mem_union_left {p : JoinPath} {paths more : List JoinPath} (h : p ∈ paths) :
    p ∈ JoinPath.union paths more :=
  JoinPath.mem_union.2 (.inl h)

theorem mem_union_right {p : JoinPath} {paths more : List JoinPath} (h : p ∈ more) :
    p ∈ JoinPath.union paths more :=
  JoinPath.mem_union.2 (.inr h)

/-! ## One column after the other -/

theorem resolvePath_sourced {x : Path} {grain : Option Grain} {f : Fragment}
    (hmemo : Memory mode scope memo)
    (h : (resolvePath mode scope x grain).run memo = .ok (f, memo')) :
    Memory mode scope memo' ∧ Sourced mode scope f.joins x grain f.sql := by
  obtain ⟨hmemo', _, arguments, rfl, hkey, hf⟩ := resolveColumn_run hmemo rfl h
  have hsignature : arguments.signature none = x.arguments.signature none :=
    (MemoKey.mk.injEq .. ▸ hkey).2.2.2.2.1
  exact ⟨hmemo', arguments, f, hsignature, hf, rfl, fun _ hq => hq⟩

/-- An output column stands for a projection. -/
def OutputSourced (mode : Mode) (scope : Scope m) (required : List JoinPath) (x : Projection)
    (o : Output) : Prop :=
  ∃ t c sql, locate scope.root x.path = .ok (t, c) ∧
    Sourced mode scope required x.path x.path.grain sql ∧ o = x.output mode.dialect c sql

theorem OutputSourced.mono {required more : List JoinPath} {x : Projection} {o : Output}
    (h : OutputSourced mode scope required x o) (hsub : ∀ q ∈ required, q ∈ more) :
    OutputSourced mode scope more x o := by
  obtain ⟨t, c, sql, hlocate, hsql, ho⟩ := h
  exact ⟨t, c, sql, hlocate, hsql.mono hsub, ho⟩

theorem outputsOf_sourced {taken : List String} {xs : List Projection} {os : List Output}
    {joins : List JoinPath} (hmemo : Memory mode scope memo)
    (h : (outputsOf mode scope taken xs).run memo = .ok ((os, joins), memo')) :
    Memory mode scope memo' ∧ List.Forall₂ (OutputSourced mode scope joins) xs os := by
  induction xs generalizing taken memo os joins with
  | nil =>
    cases h
    exact ⟨hmemo, .nil⟩
  | cons x xs ih =>
    unfold outputsOf at h
    obtain ⟨⟨o, first⟩, memo₁, ho, h⟩ := run_bind_ok h
    obtain ⟨⟨os', more⟩, memo₂, hos, h⟩ := run_bind_ok h
    cases h
    obtain ⟨t, c, f, hlocate, hf, rfl, -, rfl⟩ := outputOf_run ho
    obtain ⟨hmemo₁, hsql⟩ := resolvePath_sourced hmemo hf
    obtain ⟨hmemo', hall⟩ := ih hmemo₁ hos
    refine ⟨hmemo', .cons ⟨t, c, f.sql, hlocate, hsql.mono fun _ => mem_union_left, rfl⟩ ?_⟩
    exact hall.imp fun _ _ h => h.mono fun _ => mem_union_right

/-- The hidden metrics are the columns of conditions on groups, and together with the known ones they
cover all metrics that these conditions test. -/
theorem hiddenOf_sourced {known ss : List Metric} {ts : List Predicate} {joins : List JoinPath}
    (hmemo : Memory mode scope memo)
    (h : (hiddenOf mode scope known ts).run memo = .ok ((ss, joins), memo')) :
    Memory mode scope memo' ∧
      (∀ s ∈ ss, ∃ t ∈ ts, s.path = t.column ∧ Sourced mode scope joins s.path none s.sql) ∧
      ∀ t ∈ ts, ∀ u c, locate scope.root t.column = .ok (u, c) → c.isMetric = true →
        ∃ s ∈ known ++ ss, s.path.sameColumn t.column = true := by
  induction ts generalizing known ss joins memo with
  | nil =>
    cases h
    exact ⟨hmemo, ⟨fun s hs => (List.not_mem_nil hs).elim,
      fun t ht => (List.not_mem_nil ht).elim⟩⟩
  | cons t ts ih =>
    unfold hiddenOf at h
    obtain ⟨⟨u, c⟩, _, hlift, h⟩ := run_bind_ok h
    obtain ⟨_, hlocate, hlift⟩ := bind_ok hlift
    cases hlift
    dsimp only at h
    split at h
    · rename_i hskip
      obtain ⟨hmemo', hss, hts⟩ := ih hmemo h
      refine ⟨hmemo', fun s hs => ?_, fun t' ht' u' c' hlocate' hmetric => ?_⟩
      · obtain ⟨t', ht', hs⟩ := hss s hs
        exact ⟨t', List.mem_cons_of_mem _ ht', hs⟩
      · rcases List.mem_cons.1 ht' with rfl | ht'
        · cases hlocate.symm.trans hlocate'
          rw [hmetric, Bool.not_true, Bool.false_or, List.any_eq_true] at hskip
          obtain ⟨s, hs, hsame⟩ := hskip
          exact ⟨s, List.mem_append_left _ hs, hsame⟩
        · exact hts t' ht' u' c' hlocate' hmetric
    · obtain ⟨f, memo₁, hf, h⟩ := run_bind_ok h
      obtain ⟨⟨rest, more⟩, memo₂, hrest, h⟩ := run_bind_ok h
      cases h
      obtain ⟨hmemo₁, hsql⟩ := resolvePath_sourced hmemo hf
      obtain ⟨hmemo', hss, hts⟩ := ih hmemo₁ hrest
      refine ⟨hmemo', fun s hs => ?_, fun t' ht' u' c' hlocate' hmetric => ?_⟩
      · rcases List.mem_cons.1 hs with rfl | hs
        · exact ⟨t, List.mem_cons_self, rfl, hsql.mono fun _ => mem_union_left⟩
        · obtain ⟨t', ht', hpath, hs⟩ := hss s hs
          exact ⟨t', List.mem_cons_of_mem _ ht', hpath, hs.mono fun _ => mem_union_right⟩
      · rw [List.append_cons]
        rcases List.mem_cons.1 ht' with rfl | ht'
        · refine ⟨_, List.mem_append_left _ (List.mem_append_right _ List.mem_cons_self), ?_⟩
          simp [Path.sameColumn]
        · exact hts t' ht' u' c' hlocate' hmetric

theorem rowColumnsOf_sourced {known found : List (Path × String)} {ts : List Predicate}
    {joins : List JoinPath} (hmemo : Memory mode scope memo)
    (h : (rowColumnsOf mode scope known ts).run memo = .ok ((found, joins), memo')) :
    Memory mode scope memo' ∧ ∀ e ∈ found, e ∈ known ∨
      (∃ t ∈ ts, e.1 = t.column) ∧ Sourced mode scope joins e.1 e.1.grain e.2 := by
  induction ts generalizing known found joins memo with
  | nil =>
    cases h
    exact ⟨hmemo, fun e he => .inl he⟩
  | cons t ts ih =>
    unfold rowColumnsOf at h
    split at h
    · obtain ⟨hmemo', hall⟩ := ih hmemo h
      refine ⟨hmemo', fun e he => (hall e he).imp_right ?_⟩
      rintro ⟨⟨t', ht', hpath⟩, hsql⟩
      exact ⟨⟨t', List.mem_cons_of_mem _ ht', hpath⟩, hsql⟩
    · obtain ⟨f, memo₁, hf, h⟩ := run_bind_ok h
      obtain ⟨⟨found', more⟩, memo₂, hrest, h⟩ := run_bind_ok h
      cases h
      obtain ⟨hmemo₁, hsql⟩ := resolvePath_sourced hmemo hf
      obtain ⟨hmemo', hall⟩ := ih hmemo₁ hrest
      refine ⟨hmemo', fun e he => ?_⟩
      rcases hall e he with hknown | ⟨⟨t', ht', hpath⟩, hsql'⟩
      · rcases List.mem_append.1 hknown with hknown | hnew
        · exact .inl hknown
        · rw [List.mem_singleton.1 hnew]
          exact .inr ⟨⟨t, List.mem_cons_self, rfl⟩, hsql.mono fun _ => mem_union_left⟩
      · exact .inr ⟨⟨t', List.mem_cons_of_mem _ ht', hpath⟩, hsql'.mono fun _ => mem_union_right⟩

/-! ## Nestings -/

/-- The path of a column that a metric is nested by: through the metric's own joins, and at the
column's finest grain if none is given. -/
def nestPath (s : Path) (n : NestBy) (c : Column) : Path where
  joins := s.joins
  column := n.column
  grain := n.grain.orElse fun _ => c.defaultGrain?

/-- A metric is nested by the column of a path. -/
def Nests (root : m.Member) (s x : Path) : Prop :=
  ∃ t c n u e, locate root s = .ok (t, c) ∧ n ∈ c.nestBy ∧
    locate root { joins := s.joins, column := n.column } = .ok (u, e) ∧ x = nestPath s n e

/-- A dimension is projected, at its grain. -/
def Projects (q : Query) (x : Path) : Prop :=
  ∃ d ∈ q.dimensions, d.path = x

theorem projects_iff {q : Query} {x : Path} :
    q.dimensions.any (fun d => d.path.sameColumn x && d.path.grain == x.grain) = true ↔
      Projects q x := by
  rw [List.any_eq_true]
  refine exists_congr fun d => and_congr_right fun _ => ?_
  obtain ⟨joins, column, grain, arguments⟩ := x
  simp only [Path.sameColumn, Bool.and_eq_true, beq_iff_eq]
  constructor
  · rintro ⟨⟨⟨rfl, rfl⟩, rfl⟩, rfl⟩
    rfl
  · intro h
    simp [h]

theorem nestPaths_ok {s : Metric} {paths : List Path} (h : nestPaths scope s = .ok paths) :
    ∃ t c, locate scope.root s.path = .ok (t, c) ∧
      List.Forall₂ (fun n x => ∃ u e,
        locate scope.root { joins := s.path.joins, column := n.column } = .ok (u, e) ∧
          x = nestPath s.path n e) c.nestBy paths := by
  obtain ⟨⟨t, c⟩, hlocate, h⟩ := bind_ok h
  refine ⟨t, c, hlocate, (mapM_ok h).imp fun n x hx => ?_⟩
  obtain ⟨⟨u, e⟩, hcolumn, hx⟩ := bind_ok hx
  cases hx
  exact ⟨u, e, hcolumn, rfl⟩

/-- The paths found for a metric are those of the columns it is nested by. -/
theorem nests_iff {s : Metric} {paths : List Path} (h : nestPaths scope s = .ok paths) {x : Path} :
    Nests scope.root s.path x ↔ x ∈ paths := by
  obtain ⟨t, c, hlocate, hbeside⟩ := nestPaths_ok h
  constructor
  · rintro ⟨t', c', n, u, e, hlocate', hn, hcolumn, rfl⟩
    cases hlocate.symm.trans hlocate'
    obtain ⟨x, hx, u', e', hcolumn', rfl⟩ := exists_beside hbeside hn
    cases hcolumn.symm.trans hcolumn'
    exact hx
  · intro hx
    obtain ⟨n, hn, u, e, hcolumn, rfl⟩ := exists_beside hbeside.flip hx
    exact ⟨t, c, n, u, e, hlocate, hn, hcolumn, rfl⟩

/-- What the inner statement groups by for some paths, `known` being what it groups by already. -/
structure Grouped (mode : Mode) (scope : Scope m) (q : Query) (required : List JoinPath)
    (paths : Path → Prop) (known gs : List Grouping) : Prop where
  sourced : ∀ g ∈ gs, ∃ x, paths x ∧ ¬ Projects q x ∧ g.label = nestAlias mode x ∧
    Sourced mode scope required x x.grain g.sql
  covers : ∀ x, paths x → Projects q x ∨ ∃ g ∈ known ++ gs, g.label = nestAlias mode x

theorem Grouped.mono {q : Query} {required more : List JoinPath} {paths : Path → Prop}
    {known gs : List Grouping} (h : Grouped mode scope q required paths known gs)
    (hsub : ∀ j ∈ required, j ∈ more) : Grouped mode scope q more paths known gs := by
  refine ⟨fun g hg => ?_, h.covers⟩
  obtain ⟨x, hx, hnot, hlabel, hsql⟩ := h.sourced g hg
  exact ⟨x, hx, hnot, hlabel, hsql.mono hsub⟩

theorem nestByOf_grouped {q : Query} {known gs : List Grouping} {xs : List Path}
    {joins : List JoinPath} (hmemo : Memory mode scope memo)
    (h : (nestByOf mode scope q known xs).run memo = .ok ((gs, joins), memo')) :
    Memory mode scope memo' ∧ Grouped mode scope q joins (· ∈ xs) known gs := by
  induction xs generalizing known gs joins memo with
  | nil =>
    cases h
    exact ⟨hmemo, fun g hg => (List.not_mem_nil hg).elim, fun x hx => (List.not_mem_nil hx).elim⟩
  | cons x xs ih =>
    unfold nestByOf at h
    dsimp only at h
    split at h
    · rename_i hskip
      rw [Bool.or_eq_true, projects_iff, List.any_eq_true] at hskip
      obtain ⟨hmemo', hgrouped⟩ := ih hmemo h
      refine ⟨hmemo', fun g hg => ?_, fun y hy => ?_⟩
      · obtain ⟨y, hy, hg⟩ := hgrouped.sourced g hg
        exact ⟨y, List.mem_cons_of_mem _ hy, hg⟩
      · rcases List.mem_cons.1 hy with rfl | hy
        · refine hskip.imp_right fun ⟨g, hg, hlabel⟩ => ?_
          exact ⟨g, List.mem_append_left _ hg, eq_of_beq hlabel⟩
        · exact hgrouped.covers y hy
    · rename_i hskip
      rw [Bool.or_eq_true, projects_iff, not_or] at hskip
      obtain ⟨f, memo₁, hf, h⟩ := run_bind_ok h
      obtain ⟨⟨rest, more⟩, memo₂, hrest, h⟩ := run_bind_ok h
      cases h
      obtain ⟨hmemo₁, hsql⟩ := resolvePath_sourced hmemo hf
      obtain ⟨hmemo', hgrouped⟩ := ih hmemo₁ hrest
      refine ⟨hmemo', fun g hg => ?_, fun y hy => ?_⟩
      · rcases List.mem_cons.1 hg with rfl | hg
        · exact ⟨x, List.mem_cons_self, hskip.1, rfl, hsql.mono fun _ => mem_union_left⟩
        · obtain ⟨y, hy, hnot, hlabel, hg⟩ := hgrouped.sourced g hg
          exact ⟨y, List.mem_cons_of_mem _ hy, hnot, hlabel, hg.mono fun _ => mem_union_right⟩
      · rw [List.append_cons]
        rcases List.mem_cons.1 hy with rfl | hy
        · exact .inr ⟨_, List.mem_append_left _ (List.mem_append_right _ List.mem_cons_self), rfl⟩
        · exact hgrouped.covers y hy

/-- Some metrics are nested by the column of a path. -/
def NestsAny (root : m.Member) (metrics : List Metric) (x : Path) : Prop :=
  ∃ s ∈ metrics, Nests root s.path x

theorem collect_grouped {q : Query} {known gs : List Grouping} {ss : List Metric}
    {joins : List JoinPath} (hmemo : Memory mode scope memo)
    (h : (nestingOf.collect mode scope q known ss).run memo = .ok ((gs, joins), memo')) :
    Memory mode scope memo' ∧ Grouped mode scope q joins (NestsAny scope.root ss) known gs ∧
      ∀ s ∈ ss, ∃ paths, nestPaths scope s = .ok paths := by
  induction ss generalizing known gs joins memo with
  | nil =>
    cases h
    refine ⟨hmemo, ⟨fun g hg => (List.not_mem_nil hg).elim, fun x hx => ?_⟩,
      fun s hs => (List.not_mem_nil hs).elim⟩
    obtain ⟨s, hs, -⟩ := hx
    exact (List.not_mem_nil hs).elim
  | cons s ss ih =>
    unfold nestingOf.collect at h
    obtain ⟨paths, _, hlift, h⟩ := run_bind_ok h
    obtain ⟨_, hpaths, hlift⟩ := bind_ok hlift
    cases hlift
    obtain ⟨⟨first, joins₁⟩, memo₁, hfirst, h⟩ := run_bind_ok h
    obtain ⟨⟨rest, more⟩, memo₂, hrest, h⟩ := run_bind_ok h
    cases h
    obtain ⟨hmemo₁, hgrouped⟩ := nestByOf_grouped hmemo hfirst
    obtain ⟨hmemo', hgrouped', hall⟩ := ih hmemo₁ hrest
    refine ⟨hmemo', ⟨fun g hg => ?_, ?_⟩, fun s' hs' => ?_⟩
    · rcases List.mem_append.1 hg with hg | hg
      · obtain ⟨x, hx, hnot, hlabel, hg⟩ := hgrouped.sourced g hg
        exact ⟨x, ⟨s, List.mem_cons_self, (nests_iff hpaths).2 hx⟩, hnot, hlabel,
          hg.mono fun _ => mem_union_left⟩
      · obtain ⟨x, ⟨s', hs', hx⟩, hnot, hlabel, hg⟩ := hgrouped'.sourced g hg
        exact ⟨x, ⟨s', List.mem_cons_of_mem _ hs', hx⟩, hnot, hlabel,
          hg.mono fun _ => mem_union_right⟩
    · rintro x ⟨s', hs', hx⟩
      rw [← List.append_assoc]
      rcases List.mem_cons.1 hs' with rfl | hs'
      · refine (hgrouped.covers x ((nests_iff hpaths).1 hx)).imp_right fun ⟨g, hg, hlabel⟩ => ?_
        exact ⟨g, List.mem_append_left _ hg, hlabel⟩
      · exact hgrouped'.covers x ⟨s', hs', hx⟩
    · rcases List.mem_cons.1 hs' with rfl | hs'
      · exact ⟨paths, hpaths⟩
      · exact hall s' hs'

/-! ## Plans -/

/-- What a plan for a query in a table holds, and what that comes from. -/
structure Holds (d : Dialect) (q : Query) (root : m.Member) (required : List JoinPath)
    (p : Plan) : Prop where
  root_eq : p.root = root.1
  rootAlias_eq : p.rootAlias = aliasFor d root.1 []
  outputs : List.Forall₂ (OutputSourced ⟨d, false⟩ (Scope.of root q.arguments) required)
    q.projections p.outputs
  hidden : ∀ s ∈ p.hidden, ∃ t ∈ Filter.predicatesOf p.filters.groups, s.path = t.column ∧
    Sourced ⟨d, false⟩ (Scope.of root q.arguments) required s.path none s.sql
  tested : ∀ t ∈ Filter.predicatesOf p.filters.groups, ∀ u c,
    locate root t.column = .ok (u, c) → c.isMetric = true →
      ∃ s ∈ p.metrics, s.path.sameColumn t.column = true
  rowColumns : ∀ e ∈ p.rowColumns, (∃ t ∈ Filter.predicatesOf p.filters.rows, e.1 = t.column) ∧
    Sourced ⟨d, false⟩ (Scope.of root q.arguments) required e.1 e.1.grain e.2
  nests : p.nested = true → Grouped ⟨d, false⟩ (Scope.of root q.arguments) q required
    (NestsAny root (p.metrics.filter Metric.twoPass)) [] p.nestBy
  located : p.nested = true → ∀ s ∈ p.metrics, s.twoPass = true →
    ∃ paths, nestPaths (Scope.of root q.arguments) s = .ok paths
  flat : p.nested = false → p.nestBy = []

theorem nestingOf_grouped {q : Query} {gs : List Grouping} {ss : List Metric}
    {joins : List JoinPath} (hmemo : Memory mode scope memo)
    (h : (nestingOf mode scope q ss).run memo = .ok ((gs, joins), memo')) :
    (ss.any Metric.twoPass = true →
      Grouped mode scope q joins (NestsAny scope.root (ss.filter Metric.twoPass)) [] gs ∧
        ∀ s ∈ ss, s.twoPass = true → ∃ paths, nestPaths scope s = .ok paths) ∧
      (ss.any Metric.twoPass = false → gs = []) := by
  unfold nestingOf at h
  split at h
  · rename_i htwo
    refine ⟨fun _ => ?_, fun hno => by rw [hno] at htwo; cases htwo⟩
    obtain ⟨_, _, hlift, h⟩ := run_bind_ok h
    obtain ⟨_, -, hlift⟩ := bind_ok hlift
    cases hlift
    obtain ⟨-, hgrouped, hall⟩ := collect_grouped hmemo h
    exact ⟨hgrouped, fun s hs htwo => hall s (List.mem_filter.2 ⟨hs, htwo⟩)⟩
  · rename_i hno
    cases h
    exact ⟨fun htwo => (hno htwo).elim, fun _ => rfl⟩

theorem Drafted.holds {d : Dialect} {q : Query} {root : m.Member} {filters : Placement}
    {required : List JoinPath} {p : Plan} (h : Drafted d q root filters required p) :
    Holds d q root required p := by
  obtain ⟨_, _, _, _, _, _, _, _, houtputs, hhidden, hrows, hnest, rfl⟩ := h.runs
  obtain ⟨hmemo, houtputs⟩ := outputsOf_sourced remembers_nil houtputs
  obtain ⟨hmemo, hhidden, htested⟩ := hiddenOf_sourced hmemo hhidden
  obtain ⟨hmemo, hrows⟩ := rowColumnsOf_sourced hmemo hrows
  obtain ⟨hnested, hflat⟩ := nestingOf_grouped hmemo hnest
  rw [← h.filters_eq] at hhidden htested hrows
  exact {
    root_eq := h.root_eq
    rootAlias_eq := h.rootAlias_eq
    outputs := houtputs.imp fun _ _ h =>
      h.mono fun _ hj => mem_union_left (mem_union_left (mem_union_left hj))
    hidden := fun s hs => by
      obtain ⟨t, ht, hpath, hsql⟩ := hhidden s hs
      exact ⟨t, ht, hpath, hsql.mono fun _ hj =>
        mem_union_left (mem_union_left (mem_union_right hj))⟩
    tested := htested
    rowColumns := fun e he => by
      obtain ⟨htest, hsql⟩ := (hrows e he).resolve_left List.not_mem_nil
      exact ⟨htest, hsql.mono fun _ hj => mem_union_left (mem_union_right hj)⟩
    nests := fun h => (hnested h).1.mono fun _ => mem_union_right
    located := fun h => (hnested h).2
    flat := hflat }

/-- A plan holds what its draft does, and the joins planned for it. -/
theorem build_holds {d : Dialect} {q : Query} {p : Plan} (h : build m d q = .ok p) :
    ∃ root required, m.require q.table = .ok root ∧ Holds d q root required p ∧
      JoinPlan.of ⟨d, false⟩ (Scope.of root q.arguments) required = .ok p.joins := by
  obtain ⟨filters, root, required, -, hroot, hp, hjoins⟩ := build_drafted h
  exact ⟨root, required, hroot, hp.holds, hjoins⟩

end

end Plan

end Rollup
