/-
What the inner statement of two passes groups by. A metric that is aggregated twice names columns
and grains it is first aggregated by; each of them is projected, or comes into the inner statement
under an alias glued together from its joins, its name and its grain. Where that alias tells the
columns apart the inner statement groups by every one of them; where it does not, only the first
column with the alias is grouped by.
-/
import Rollup.Proofs.Compile.Placeholders
import Rollup.Proofs.Compile.Shape
import Rollup.Proofs.Compile.SinglePass
import Rollup.Proofs.Compile.Sources

namespace Rollup

open Sql

/-! ## Arguments that are written alike -/

theorem Text.join_cons_ne_empty {sep first : String} (h : first ≠ "") (rest : List String) :
    Text.join sep (first :: rest) ≠ "" := by
  cases rest with
  | nil => exact h
  | cons next rest =>
    have hjoin : Text.join sep (first :: next :: rest) =
        first ++ sep ++ Text.join sep (next :: rest) := rfl
    rw [hjoin, Ne, String.append_eq_empty_iff, String.append_eq_empty_iff]
    exact fun hall => h hall.1.1

/-- Arguments that are written like none at all are none. -/
theorem Arguments.eq_empty_of_signature {a : Arguments}
    (h : a.signature none = Arguments.empty.signature none) : a = .empty := by
  obtain ⟨entries, ordered⟩ := a
  cases entries with
  | nil => rfl
  | cons e rest =>
    refine absurd h (Text.join_cons_ne_empty ?_ _)
    rw [Ne, String.append_eq_empty_iff, String.append_eq_empty_iff]
    exact fun hall => absurd hall.1.2 (by decide)

namespace Plan

section

variable {m : Model} {mode : Mode} {scope : Scope m} {d : Dialect} {q : Query} {root : m.Member}
  {p : Plan} {required : List JoinPath}

/-- The text of a column without arguments is what the column expands to. -/
theorem Sourced.expands {x : Path} {grain : Option Grain} {sql : String}
    (h : Sourced mode scope required x grain sql) (hx : x.arguments = .empty) :
    ∃ f, expandColumn mode scope x.joins x.column .empty grain = .ok f ∧ f.sql = sql := by
  obtain ⟨arguments, f, hsignature, hf, hsql, -⟩ := h
  rw [hx] at hsignature
  rw [Arguments.eq_empty_of_signature hsignature] at hf
  exact ⟨f, hf, hsql⟩

/-- Every projected metric is read. -/
theorem Holds.projected (h : Holds d q root required p) :
    ∀ x ∈ q.metrics, ∃ s ∈ p.metrics, s.path = x.path := by
  intro x hx
  obtain ⟨hx, hrole⟩ := List.mem_filter.1 hx
  obtain ⟨o, ho, t, c, sql, -, -, rfl⟩ := exists_beside h.outputs hx
  refine ⟨⟨x.path, sql, c.aggregation, Sql.fitName d x.name⟩,
    List.mem_append_left _ (mem_projectedMetrics.2 ⟨_, ho, if_pos hrole⟩), rfl⟩

/-- A projected dimension is grouped by, as its column expands. -/
theorem Holds.groups_projected (h : Holds d q root required p) {x : Projection}
    (hx : x ∈ q.dimensions) : ∃ g ∈ p.dimensions,
      Sourced ⟨d, false⟩ (Scope.of root q.arguments) required x.path x.path.grain g.sql := by
  obtain ⟨hx, hrole⟩ := List.mem_filter.1 hx
  have hmetric : x.role ≠ .metric := by simpa [Role.isDimension] using hrole
  obtain ⟨o, ho, t, c, sql, -, hsql, rfl⟩ := exists_beside h.outputs hx
  exact ⟨_, mem_groupings.2 ⟨_, ho, Projection.content_output_dimension hmetric⟩, hsql⟩

/-- Different columns that metrics are nested by, and that are not projected, have different aliases
in the inner statement. -/
def NestAliasesDiffer (mode : Mode) (root : m.Member) (q : Query) (metrics : List Metric) : Prop :=
  ∀ x y, NestsAny root metrics x → NestsAny root metrics y →
    ¬ Projects q x → ¬ Projects q y → nestAlias mode x = nestAlias mode y → x = y

/-- Where their aliases differ, every column that a metric is nested by is grouped by. -/
theorem Holds.groups_nested (h : Holds d q root required p) (hnested : p.nested = true)
    (haliases : NestAliasesDiffer ⟨d, false⟩ root q (p.metrics.filter Metric.twoPass)) {x : Path}
    (hx : NestsAny root (p.metrics.filter Metric.twoPass) x) :
    ∃ f, expandColumn ⟨d, false⟩ (Scope.of root q.arguments) x.joins x.column .empty x.grain =
      .ok f ∧ ∃ g ∈ p.dimensions ++ p.nestBy, g.sql = f.sql := by
  have hplain : x.arguments = .empty := by
    obtain ⟨_, -, _, _, _, _, _, -, -, -, rfl⟩ := hx
    rfl
  have hgrouped := h.nests hnested
  obtain ⟨g, hg, hsql⟩ : ∃ g ∈ p.dimensions ++ p.nestBy,
      Sourced ⟨d, false⟩ (Scope.of root q.arguments) required x x.grain g.sql := by
    by_cases hprojected : Projects q x
    · obtain ⟨y, hy, rfl⟩ := hprojected
      obtain ⟨g, hg, hsql⟩ := h.groups_projected hy
      exact ⟨g, List.mem_append_left _ hg, hsql⟩
    · -- the column with the alias of this one is this one
      obtain ⟨g, hg, hlabel⟩ := (hgrouped.covers x hx).resolve_left hprojected
      obtain ⟨y, hy, hnot, hlabel', hsql⟩ := hgrouped.sourced g hg
      obtain rfl := haliases x y hx hy hprojected hnot (hlabel.symm.trans hlabel')
      exact ⟨g, List.mem_append_right _ hg, hsql⟩
  obtain ⟨f, hf, heq⟩ := hsql.expands hplain
  exact ⟨f, hf, g, hg, heq.symm⟩

/-- Of two passes the first is the source of the second, and it groups by the dimensions and by what
metrics are nested by. -/
theorem main_run_nested {s : Select} {params : List Operand}
    (h : p.main.run [] = .ok (s, params)) (hnested : p.nested = true) :
    ∃ inner, s.source = some ⟨.query inner, some p.innerAlias⟩ ∧
      inner.groupBy = (p.dimensions ++ p.nestBy).map fun g => .raw g.sql := by
  obtain ⟨rows, orderBy, _, hrows, -, rfl⟩ := main_run h
  obtain ⟨base, having, _, -, -, rfl⟩ := rows_run hrows
  refine ⟨p.innerSelect base, ?_, rfl⟩
  simp only [grouped, hnested, if_true]

end

end Plan

theorem Plan.nested_of_compile {p : Plan} {c : Compiled} (h : p.compile = .ok c) :
    c.nested = p.nested :=
  (compile_rest h).1

/-- In a nested query the inner statement groups by every column and grain that a metric with two
passes is nested by, the finest grain if none is given and through the joins of the metric, provided
that different ones that are not projected have different aliases. The metrics read are those
projected and those that conditions on groups test. -/
theorem compile_nests {m : Model} {d : Dialect} {q : Query} {root : m.Member} {p : Plan}
    {c : Compiled} (h : compile m d q = .ok c) (hnested : c.nested = true)
    (hroot : m.require q.table = .ok root) (hbuild : Plan.build m d q = .ok p)
    (haliases : Plan.NestAliasesDiffer ⟨d, false⟩ root q (p.metrics.filter Metric.twoPass)) :
    (∀ x ∈ q.metrics, ∃ s ∈ p.metrics, s.path = x.path) ∧
    (∀ t ∈ Filter.predicatesOf p.filters.groups, ∀ u k, locate root t.column = .ok (u, k) →
      k.isMetric = true → ∃ s ∈ p.metrics, s.path.sameColumn t.column = true) ∧
    ∃ main params inner, p.main.run [] = .ok (main, params) ∧
      c.main = ⟨main.render d, params⟩ ∧
      main.source = some ⟨.query inner, some p.innerAlias⟩ ∧
      ∀ s ∈ p.metrics, s.twoPass = true → ∃ t k, locate root s.path = .ok (t, k) ∧
        ∀ n ∈ k.nestBy, ∃ u e f,
          locate root { joins := s.path.joins, column := n.column } = .ok (u, e) ∧
          expandColumn ⟨d, false⟩ (Scope.of root q.arguments) s.path.joins n.column .empty
            (n.grain.orElse fun _ => e.defaultGrain?) = .ok f ∧
          .raw f.sql ∈ inner.groupBy := by
  obtain ⟨p', hbuild', hcompile⟩ := bind_ok h
  cases hbuild.symm.trans hbuild'
  obtain ⟨root', required, hroot', hp, -⟩ := Plan.build_holds hbuild
  cases hroot.symm.trans hroot'
  obtain ⟨rfl, -⟩ := Plan.build_ok hbuild
  rw [Plan.nested_of_compile hcompile] at hnested
  obtain ⟨main, params, hmain, hc⟩ := Plan.statement_ok (Plan.compile_ok hcompile).1
  obtain ⟨inner, hsource, hgroupBy⟩ := Plan.main_run_nested hmain hnested
  refine ⟨hp.projected, hp.tested, main, params, inner, hmain, hc, hsource, fun s hs htwo => ?_⟩
  obtain ⟨paths, hpaths⟩ := hp.located hnested s hs htwo
  obtain ⟨t, k, hlocate, hbeside⟩ := Plan.nestPaths_ok hpaths
  refine ⟨t, k, hlocate, fun n hn => ?_⟩
  obtain ⟨x, -, u, e, hcolumn, rfl⟩ := exists_beside hbeside hn
  obtain ⟨f, hf, g, hg, hsql⟩ := hp.groups_nested hnested haliases
    ⟨s, List.mem_filter.2 ⟨hs, htwo⟩, t, k, n, u, e, hlocate, hn, hcolumn, rfl⟩
  refine ⟨u, e, f, hcolumn, hf, ?_⟩
  rw [hgroupBy, ← hsql]
  exact List.mem_map_of_mem hg

/-- Games, and the most points made on a weekday and day, or in a season and on a day. -/
def gameLog : Model where
  tables := [
    { name := "games"
      source := .physical none "games"
      columns := [
        { name := "team", formula := "\x7b\x7b$team\x7d\x7d", kind := .dimension },
        { name := "season", formula := "\x7b\x7b$season\x7d\x7d", kind := .dimension },
        { name := "played_day", formula := "\x7b\x7b$weekday\x7d\x7d", kind := .dimension },
        { name := "played", formula := "\x7b\x7b$played_at\x7d\x7d"
          kind := .timeDimension [{ grain := .day }] },
        { name := "best", formula := "SUM(\x7b\x7b$points\x7d\x7d)"
          kind := .metric (some .max) [{ column := "played_day" },
            { column := "played", grain := some .day }] },
        { name := "top", formula := "SUM(\x7b\x7b$points\x7d\x7d)"
          kind := .metric (some .max) [{ column := "season" }, { column := "played" }] }] }]

/-- The games of the log. -/
def loggedGames : gameLog.Member := ⟨gameLog.tables.head (by decide), List.mem_cons_self⟩

/-- A metric of each team. -/
def teamMetric (metric : String) : Query where
  table := "games"
  arguments := .empty
  projections := teamColumns [metric]
  whereFilter := none
  havingFilter := none
  sorting := []
  pagination := none
  bypassCache := false

/-- What a draft shows of a nested plan with one metric: the columns it is nested by, and what the
inner statement groups by. -/
def Plan.showsNests (paths : List Path) (groups : List String) (p : Plan) : Bool :=
  p.nested && ((p.metrics.filter Metric.twoPass).map fun s =>
    nestPaths (Scope.of loggedGames .empty) s) == [.ok paths] &&
    (p.dimensions ++ p.nestBy).map (·.sql) == groups && p.compile.toOption.isSome

/-- A nested query of the games, its plan, and what the plan shows. -/
theorem compile_teamMetric (metric : String) (paths : List Path) (groups : List String)
    (h : ((Plan.draft .sqlite (teamMetric metric) loggedGames {}).run' []).map
      (fun r => (r.2, Plan.showsNests paths groups { r.1 with joins := [] })) = .ok ([], true))
    (hfilters : Placement.of gameLog (teamMetric metric) = .ok {}) :
    ∃ c p s, compile gameLog .sqlite (teamMetric metric) = .ok c ∧ c.nested = true ∧
      Plan.build gameLog .sqlite (teamMetric metric) = .ok p ∧
      p.metrics.filter Metric.twoPass = [s] ∧
      Plan.nestPaths (Scope.of loggedGames .empty) s = .ok paths ∧
      (p.dimensions ++ p.nestBy).map (·.sql) = groups := by
  obtain ⟨p, hp, hshows⟩ := Plan.build_shown (Plan.showsNests paths groups) hfilters rfl h
  simp only [Plan.showsNests, Bool.and_eq_true, beq_iff_eq] at hshows
  obtain ⟨⟨⟨hnested, hpaths⟩, hgroups⟩, hsome⟩ := hshows
  obtain ⟨s, hs, hpaths⟩ := List.map_eq_singleton_iff.1 hpaths
  obtain ⟨c, hc⟩ := Option.isSome_iff_exists.1 hsome
  have hc : p.compile = .ok c := ok_of_toOption hc
  exact ⟨c, p, s, (compile_of_build hp).trans hc, (Plan.nested_of_compile hc).trans hnested, hp, hs,
    hpaths, hgroups⟩

/-- Seasons and days have aliases of their own, so the most points are found for each of both. -/
theorem compile_nests_top :
    Model.build gameLog.tables = .ok gameLog ∧
    ∃ c p inner, compile gameLog .sqlite (teamMetric "top") = .ok c ∧ c.nested = true ∧
      Plan.build gameLog .sqlite (teamMetric "top") = .ok p ∧
      Plan.NestAliasesDiffer ⟨.sqlite, false⟩ loggedGames (teamMetric "top")
        (p.metrics.filter Metric.twoPass) ∧
      (∃ main params, p.main.run [] = .ok (main, params) ∧
        main.source = some ⟨.query inner, some p.innerAlias⟩) ∧
      .raw "\"games\".\"season\"" ∈ inner.groupBy ∧
      .raw "date(\"games\".\"played_at\")" ∈ inner.groupBy := by
  let paths : List Path := [{ column := "season" }, { column := "played", grain := some .day }]
  obtain ⟨c, p, s, hc, hnested, hp, hs, hpaths, -⟩ := compile_teamMetric "top" paths
    ["\"games\".\"team\"", "\"games\".\"season\"", "date(\"games\".\"played_at\")"]
    (by decide +kernel) (by decide +kernel)
  have haliases : Plan.NestAliasesDiffer ⟨.sqlite, false⟩ loggedGames (teamMetric "top")
      (p.metrics.filter Metric.twoPass) := by
    have hdiffer : ∀ x ∈ paths, ∀ y ∈ paths,
        Plan.nestAlias ⟨.sqlite, false⟩ x = Plan.nestAlias ⟨.sqlite, false⟩ y → x = y := by
      decide +kernel
    rw [hs]
    rintro x y ⟨s₁, hs₁, hx⟩ ⟨s₂, hs₂, hy⟩ - - halias
    rw [List.mem_singleton.1 hs₁] at hx
    rw [List.mem_singleton.1 hs₂] at hy
    exact hdiffer x ((Plan.nests_iff hpaths).1 hx) y ((Plan.nests_iff hpaths).1 hy) halias
  obtain ⟨-, -, main, params, inner, hmain, -, hsource, hgroups⟩ :=
    compile_nests hc hnested rfl hp haliases
  have hmem : s ∈ p.metrics.filter Metric.twoPass := by
    rw [hs]
    exact List.mem_cons_self
  obtain ⟨t, k, hlocate, hgroups⟩ := hgroups s (List.mem_of_mem_filter hmem)
    (List.mem_filter.1 hmem).2
  have hgroup : ∀ x ∈ paths, ∃ f, expandColumn ⟨.sqlite, false⟩ (Scope.of loggedGames .empty)
      x.joins x.column .empty x.grain = .ok f ∧ .raw f.sql ∈ inner.groupBy := by
    intro x hx
    obtain ⟨_, _, n, _, _, hlocate', hn, hcolumn, rfl⟩ := (Plan.nests_iff hpaths).2 hx
    cases hlocate.symm.trans hlocate'
    obtain ⟨_, _, f, hcolumn', hf, hmem⟩ := hgroups n hn
    cases hcolumn.symm.trans hcolumn'
    exact ⟨f, hf, hmem⟩
  obtain ⟨season, hseason, hseasons⟩ := hgroup _ List.mem_cons_self
  obtain ⟨day, hday, hdays⟩ := hgroup _ (List.mem_cons_of_mem _ List.mem_cons_self)
  refine ⟨by decide +kernel, c, p, inner, hc, hnested, hp, haliases, ⟨main, params, hmain, hsource⟩,
    ?_, ?_⟩
  · have hsql : expandColumn ⟨.sqlite, false⟩ (Scope.of loggedGames .empty) [] "season" .empty none =
        .ok ⟨"\"games\".\"season\"", []⟩ := by decide +kernel
    cases hsql.symm.trans hseason
    exact hseasons
  · have hsql : expandColumn ⟨.sqlite, false⟩ (Scope.of loggedGames .empty) [] "played" .empty
        (some .day) = .ok ⟨"date(\"games\".\"played_at\")", []⟩ := by decide +kernel
    cases hsql.symm.trans hday
    exact hdays

/-- The weekday and the day have one alias in the inner statement, so it groups by the weekday alone,
although the metric is nested by the day as well. -/
theorem compile_nests_best :
    Model.build gameLog.tables = .ok gameLog ∧
    ∃ c p s inner t k n u e f, compile gameLog .sqlite (teamMetric "best") = .ok c ∧
      c.nested = true ∧ Plan.build gameLog .sqlite (teamMetric "best") = .ok p ∧
      s ∈ p.metrics ∧ s.twoPass = true ∧
      (∃ main params, p.main.run [] = .ok (main, params) ∧
        main.source = some ⟨.query inner, some p.innerAlias⟩) ∧
      locate loggedGames s.path = .ok (t, k) ∧ n ∈ k.nestBy ∧
      locate loggedGames { joins := s.path.joins, column := n.column } = .ok (u, e) ∧
      expandColumn ⟨.sqlite, false⟩ (Scope.of loggedGames .empty) s.path.joins n.column .empty
        (n.grain.orElse fun _ => e.defaultGrain?) = .ok f ∧
      .raw f.sql ∉ inner.groupBy := by
  let day : Path := { column := "played", grain := some .day }
  obtain ⟨c, p, s, hc, hnested, hp, hs, hpaths, hgroups⟩ := compile_teamMetric "best"
    [{ column := "played_day" }, day] ["\"games\".\"team\"", "\"games\".\"weekday\""]
    (by decide +kernel) (by decide +kernel)
  have hmem : s ∈ p.metrics.filter Metric.twoPass := by
    rw [hs]
    exact List.mem_cons_self
  obtain ⟨p', hp', hcompile⟩ := bind_ok hc
  cases hp.symm.trans hp'
  obtain ⟨main, params, hmain, -⟩ := Plan.statement_ok (Plan.compile_ok hcompile).1
  obtain ⟨inner, hsource, hgroupBy⟩ := Plan.main_run_nested hmain
    ((Plan.nested_of_compile hcompile).symm.trans hnested)
  have hday : expandColumn ⟨.sqlite, false⟩ (Scope.of loggedGames .empty) day.joins day.column .empty
      day.grain = .ok ⟨"date(\"games\".\"played_at\")", []⟩ := by decide +kernel
  obtain ⟨t, k, n, u, e, hlocate, hn, hcolumn, hpath⟩ := (Plan.nests_iff hpaths).2
    (List.mem_cons_of_mem _ List.mem_cons_self)
  rw [hpath] at hday
  refine ⟨by decide +kernel, c, p, s, inner, t, k, n, u, e, _, hc, hnested, hp,
    List.mem_of_mem_filter hmem, (List.mem_filter.1 hmem).2, ⟨main, params, hmain, hsource⟩, hlocate,
    hn, hcolumn, hday, ?_⟩
  rw [hgroupBy]
  intro hday
  obtain ⟨g, hg, hraw⟩ := List.mem_map.1 hday
  have hsql := List.mem_map_of_mem (f := Grouping.sql) hg
  rw [hgroups, Expr.raw.inj hraw] at hsql
  revert hsql
  decide

end Rollup
