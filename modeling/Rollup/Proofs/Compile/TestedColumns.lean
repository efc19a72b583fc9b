/-
What predicates on dimensions test. On rows a predicate tests the column it names, in the grain it
names. On groups there is nothing to test but what the groups are formed by, so it tests the first
projection of its column that has its grain, or any grain if it names none. Both texts come from one
memory of expansions, in which the projections come first; so they are the same text wherever the
grains are the same, and only a time that is named without a grain is tested in the grain it is
projected in.
-/
import Rollup.Proofs.Compile.RawMetrics
import Rollup.Proofs.Filter.Alike

namespace Rollup

namespace Plan

section

variable {m : Model} {mode : Mode} {scope : Scope m} {memo memo' memo'' : Memo}

/-! ## What stays in the memory -/

/-- Whatever was remembered still is. -/
def Retains (memo memo' : Memo) : Prop :=
  ∀ k f, memo.lookup k = some f → memo'.lookup k = some f

theorem Retains.trans (h : Retains memo memo') (h' : Retains memo' memo'') : Retains memo memo'' :=
  fun k f hk => h' k f (h k f hk)

theorem resolvePath_retains {x : Path} {grain : Option Grain} {f : Fragment}
    (h : (resolvePath mode scope x grain).run memo = .ok (f, memo')) :
    Retains memo memo' ∧
      memo'.lookup (expansionKey scope x.joins x.column x.arguments grain) = some f := by
  rcases resolveColumn_cases h with ⟨hfound, rfl⟩ | ⟨hnone, -, rfl⟩
  · exact ⟨fun _ _ hk => hk, hfound⟩
  · refine ⟨fun k f' hk => ?_, by simp⟩
    by_cases hkey : k = expansionKey scope x.joins x.column x.arguments grain
    · rw [hkey, hnone] at hk
      cases hk
    · have hne : (k == expansionKey scope x.joins x.column x.arguments grain) = false := by
        simpa using hkey
      rw [List.lookup_cons, hne]
      exact hk

/-- What is remembered of a path is the answer, and the memory stays as it is. -/
theorem resolvePath_of_lookup {x : Path} {grain : Option Grain} {f : Fragment}
    (h : memo.lookup (expansionKey scope x.joins x.column x.arguments grain) = some f) :
    (resolvePath mode scope x grain).run memo = .ok (f, memo) := by
  unfold expansionKey at h
  unfold resolvePath resolveColumn
  rw [StateT.run_bind, StateT.run_get, pure_bind]
  dsimp only
  rw [h]
  rfl

theorem hiddenOf_retains {known ss : List Metric} {ts : List Predicate} {joins : List JoinPath}
    (h : (hiddenOf mode scope known ts).run memo = .ok ((ss, joins), memo')) :
    Retains memo memo' := by
  induction ts generalizing known ss joins memo with
  | nil =>
    cases h
    exact fun _ _ hk => hk
  | cons t ts ih =>
    unfold hiddenOf at h
    obtain ⟨⟨u, c⟩, _, hlift, h⟩ := run_bind_ok h
    obtain ⟨_, -, hlift⟩ := bind_ok hlift
    cases hlift
    dsimp only at h
    split at h
    · exact ih h
    · obtain ⟨f, memo₁, hf, h⟩ := run_bind_ok h
      obtain ⟨⟨rest, more⟩, memo₂, hrest, h⟩ := run_bind_ok h
      cases h
      exact (resolvePath_retains hf).1.trans (ih hrest)

/-- The columns that predicates on rows read are remembered as they are found. -/
theorem rowColumnsOf_retains {known found : List (Path × String)} {ts : List Predicate}
    {joins : List JoinPath}
    (h : (rowColumnsOf mode scope known ts).run memo = .ok ((found, joins), memo')) :
    Retains memo memo' ∧ ∀ e ∈ found, e ∈ known ∨ ∃ f, e.2 = f.sql ∧
      memo'.lookup (expansionKey scope e.1.joins e.1.column e.1.arguments e.1.grain) = some f := by
  induction ts generalizing known found joins memo with
  | nil =>
    cases h
    exact ⟨fun _ _ hk => hk, fun e he => .inl he⟩
  | cons t ts ih =>
    unfold rowColumnsOf at h
    split at h
    · exact ih h
    · obtain ⟨f, memo₁, hf, h⟩ := run_bind_ok h
      obtain ⟨⟨found', more⟩, memo₂, hrest, h⟩ := run_bind_ok h
      cases h
      obtain ⟨hfirst, hlookup⟩ := resolvePath_retains hf
      obtain ⟨hmemo, hall⟩ := ih hrest
      refine ⟨hfirst.trans hmemo, fun e he => ?_⟩
      rcases hall e he with he | he
      · rcases List.mem_append.1 he with he | he
        · exact .inl he
        · rw [List.mem_singleton.1 he]
          exact .inr ⟨f, rfl, hmemo _ _ hlookup⟩
      · exact .inr he

end

/-! ## What predicates on groups test -/

section

variable {m : Model} {d : Dialect} {r : Request} {q : Query} {root : m.Member} {p : Plan}

theorem column_eq_of_sameColumn {x y : Path} (h : x.sameColumn y = true) {t t' : m.Member}
    {c c' : Column} (hx : locate root x = .ok (t, c)) (hy : locate root y = .ok (t', c')) :
    c = c' := by
  obtain ⟨ht, hc⟩ := locate_ok hx
  obtain ⟨ht', hc'⟩ := locate_ok hy
  simp only [Path.sameColumn, Bool.and_eq_true, beq_iff_eq] at h
  obtain ⟨⟨hjoins, hcolumn⟩, -⟩ := h
  rw [hjoins] at ht
  cases ht.symm.trans ht'
  rw [hcolumn] at hc
  exact Option.some.inj (hc.symm.trans hc')

/-- A path is grouped with a projection of its column, in its grain if it has one. -/
theorem groupingProjection?_ok {y : Path} {x : Projection}
    (h : q.groupingProjection? y = some x) :
    x ∈ q.projections ∧ x.role ≠ .metric ∧ x.path.sameColumn y = true ∧
      (y.grain = none ∨ y.grain = x.path.grain) := by
  unfold Query.groupingProjection? at h
  obtain ⟨hmem, hrole⟩ := List.mem_filter.1 (List.mem_of_find?_eq_some h)
  have hmatch := List.find?_some h
  rw [Bool.and_eq_true, Bool.or_eq_true, Option.isNone_iff_eq_none, beq_iff_eq] at hmatch
  exact ⟨hmem, by simpa [Role.isDimension] using hrole, hmatch.1, hmatch.2⟩

/-- What a plan reads as a metric is one in the model. -/
theorem isMetric_of_mem_metrics (hquery : Query.build m r = .ok q)
    (hroot : m.require q.table = .ok root) (h : build m d q = .ok p) :
    ∀ s ∈ p.metrics, ∃ u c, locate root s.path = .ok (u, c) ∧ c.isMetric = true := by
  obtain ⟨root', hroot', hroles⟩ := Query.role_of_build hquery
  cases hroot.symm.trans hroot'
  obtain ⟨root', hroot', hdrawn⟩ := build_drawn h
  cases hroot.symm.trans hroot'
  obtain ⟨memo, hshows⟩ := hdrawn.shows
  intro s hs
  rcases List.mem_append.1 hs with hs | hs
  · obtain ⟨o, ho, hs⟩ := mem_projectedMetrics.1 hs
    obtain ⟨x, hx, u, c, f, hlocate, -, rfl⟩ := exists_beside hshows.outputs.flip ho
    by_cases hmetric : (x.role == .metric) = true
    · rw [Projection.output, if_pos hmetric] at hs
      cases hs
      refine ⟨u, c, hlocate, ?_⟩
      rw [Column.isMetric, ← hroles x hx u c hlocate]
      exact hmetric
    · rw [Projection.output, if_neg hmetric] at hs
      cases hs
  · obtain ⟨u, c, hlocate, hmetric, -⟩ := (recalled_of_build hquery hroot h).1 s hs
    exact ⟨u, c, hlocate, hmetric⟩

/-- The output column of a projection is found by its name. -/
theorem Drawn.outputNamed?_eq (h : Drawn d q root p) {o : Output} (ho : o ∈ p.outputs) :
    p.outputNamed? o.column.name = some o := by
  cases hfound : p.outputNamed? o.column.name with
  | none => simpa using List.find?_eq_none.1 hfound o ho
  | some o' =>
    have hname : o'.column.name = o.column.name := by simpa using List.find?_some hfound
    rw [List.inj_on_of_nodup_map h.names_nodup (List.mem_of_find?_eq_some hfound) ho hname]

/-- In a single pass a predicate on a dimension of the groups tests the text that its projection came
to. -/
theorem groupColumn_of_dimension (hquery : Query.build m r = .ok q)
    (hroot : m.require q.table = .ok root) (h : build m d q = .ok p) (hsingle : p.nested = false)
    {memo : Memo} (hshows : Shows ⟨d, false⟩ (Scope.of root q.arguments) [] [] q.projections
      p.outputs memo)
    {t : Predicate} (ht : t ∈ Filter.predicatesOf p.filters.groups) {u : m.Member} {c : Column}
    (hlocate : locate root t.column = .ok (u, c)) (hdimension : c.isMetric = false) :
    ∃ x f, q.groupingProjection? t.column = some x ∧
      (∃ u', locate root x.path = .ok (u', c)) ∧
      memo.lookup (expansionKey (Scope.of root q.arguments) t.column.joins t.column.column
        t.column.arguments x.path.grain) = some f ∧
      p.groupColumn t = .ok (.raw f.sql) := by
  obtain ⟨root', hroot', hdrawn⟩ := build_drawn h
  cases hroot.symm.trans hroot'
  have hnone : p.metrics.find? (·.path.sameColumn t.column) = none := by
    rw [List.find?_eq_none]
    intro s hs hsame
    obtain ⟨u', c', hlocate', hmetric⟩ := isMetric_of_mem_metrics hquery hroot h s hs
    rw [column_eq_of_sameColumn hsame hlocate' hlocate, hdimension] at hmetric
    cases hmetric
  obtain ⟨x, hx⟩ : ∃ x, q.groupingProjection? t.column = some x := by
    obtain ⟨u', c', hlocate', hon⟩ := Placement.onGroups_of_placed (build_ok h).2 hroot t ht
    cases hlocate.symm.trans hlocate'
    rw [hdimension] at hon
    exact Option.isSome_iff_exists.1 (hon.resolve_left Bool.false_ne_true)
  obtain ⟨hmem, hrole, hsame, -⟩ := groupingProjection?_ok hx
  obtain ⟨o, ho, u', c', f, hlocate', hlookup, heq⟩ := exists_beside hshows.outputs hmem
  refine ⟨x, f, hx, ⟨u', column_eq_of_sameColumn hsame hlocate' hlocate ▸ hlocate'⟩, ?_, ?_⟩
  · simp only [Path.sameColumn, Bool.and_eq_true, beq_iff_eq] at hsame
    obtain ⟨⟨hjoins, hcolumn⟩, harguments⟩ := hsame
    rw [← hjoins, ← hcolumn, ← harguments]
    exact hlookup
  · have hname : o.column.name = x.name := by rw [heq]; rfl
    rw [groupColumn, hnone, hdrawn.query, hx]
    dsimp only
    rw [Option.bind_some, ← hname, hdrawn.outputNamed?_eq ho]
    dsimp only
    rw [outputExpr, heq, Projection.content_output_dimension hrole]
    dsimp only
    rw [dimensionExpr, hsingle]
    rfl

/-- A predicate on rows tests what is remembered of its column when the projections are expanded,
if anything is. -/
theorem rowColumn_of_lookup (hroot : m.require q.table = .ok root) {joins : List JoinPath}
    {os : List Output} {memo : Memo}
    (houtputs : (outputsOf ⟨d, false⟩ (Scope.of root q.arguments) [] q.projections).run [] =
      .ok ((os, joins), memo))
    (h : build m d q = .ok p) {t : Predicate} (ht : t ∈ Filter.predicatesOf p.filters.rows)
    {f : Fragment}
    (hlookup : memo.lookup (expansionKey (Scope.of root q.arguments) t.column.joins t.column.column
      t.column.arguments t.column.grain) = some f) :
    p.rowColumn t = .ok (.raw f.sql) := by
  obtain ⟨filters, root', required, -, hroot', hp, -⟩ := build_drafted h
  cases hroot.symm.trans hroot'
  obtain ⟨_, _, _, _, _, _, _, _, houtputs', hhidden, hrows, -, -⟩ := hp.runs
  cases houtputs.symm.trans houtputs'
  obtain ⟨sql, hsql⟩ := Option.isSome_iff_exists.1 (rowColumns_cover h t ht)
  obtain ⟨before, after, hmem, -⟩ := List.lookup_eq_some_iff.1 hsql
  obtain ⟨hretains, hall⟩ := rowColumnsOf_retains hrows
  have hfound : (t.column, sql) ∈ p.rowColumns := by
    rw [hmem]
    exact List.mem_append_right _ List.mem_cons_self
  obtain ⟨f', hsame, hlookup'⟩ := (hall _ hfound).resolve_left List.not_mem_nil
  have hkept := (hiddenOf_retains hhidden).trans hretains _ _ hlookup
  cases hkept.symm.trans hlookup'
  replace hsame : sql = f.sql := hsame
  rw [rowColumn, hsql, hsame]

/-- A predicate on groups tests a text that stands for the column of a path: it is what the resolver
answers for the path from the time on when it has expanded the projections, and what a predicate on
rows tests that names the path, in the same query with any conditions. -/
structure TestsAs (d : Dialect) (q : Query) (root : m.Member) (p : Plan) (t : Predicate) (y : Path)
    (f : Fragment) : Prop where
  group : p.groupColumn t = .ok (.raw f.sql)
  resolved : ∃ joins memo,
    (outputsOf ⟨d, false⟩ (Scope.of root q.arguments) [] q.projections).run [] =
      .ok ((p.outputs, joins), memo) ∧
    ∀ memo', Retains memo memo' →
      (resolvePath ⟨d, false⟩ (Scope.of root q.arguments) y y.grain).run memo' = .ok (f, memo')
  row : ∀ rows groups p', build m d (q.filtered rows groups) = .ok p' →
    ∀ t' ∈ Filter.predicatesOf p'.filters.rows, t'.column = y → p'.rowColumn t' = .ok (.raw f.sql)

/-- In a single pass a predicate on a dimension of the groups tests the dimension in the grain of the
first projection that it can be grouped with. This is its own path if it names a grain, or if the
dimension has none; only a time that is named without a grain is tested in the grain it is projected
in. -/
theorem groups_test_own_paths (hquery : Query.build m r = .ok q)
    (hroot : m.require q.table = .ok root) (h : build m d q = .ok p) (hsingle : p.nested = false)
    {t : Predicate} (ht : t ∈ Filter.predicatesOf p.filters.groups) {u : m.Member} {c : Column}
    (hlocate : locate root t.column = .ok (u, c)) (hdimension : c.isMetric = false) :
    ∃ x f, q.groupingProjection? t.column = some x ∧
      TestsAs d q root p t { t.column with grain := x.path.grain } f ∧
      (t.column.grain.isSome = true ∨ c.isTime = false →
        { t.column with grain := x.path.grain } = t.column) := by
  obtain ⟨filters, root', required, -, hroot', hp, -⟩ := build_drafted h
  cases hroot.symm.trans hroot'
  obtain ⟨joins, _, _, _, memo, _, _, _, houtputs, -, -, -, -⟩ := hp.runs
  obtain ⟨x, f, hx, ⟨u', hlocate'⟩, hlookup, hgroup⟩ :=
    groupColumn_of_dimension hquery hroot h hsingle (outputsOf_run houtputs) ht hlocate hdimension
  refine ⟨x, f, hx, ⟨hgroup, ⟨joins, memo, houtputs, fun memo' hmemo => ?_⟩, ?_⟩, fun hown => ?_⟩
  · exact resolvePath_of_lookup (hmemo _ _ hlookup)
  · intro rows groups p' hp' t' ht' hcolumn
    refine rowColumn_of_lookup (q := q.filtered rows groups) hroot houtputs hp' ht' ?_
    rw [hcolumn]
    exact hlookup
  · obtain ⟨-, -, -, hgrain⟩ := groupingProjection?_ok hx
    have hsame : x.path.grain = t.column.grain := by
      rcases hown with hsome | hplain
      · exact (hgrain.resolve_left (Option.isSome_iff_ne_none.1 hsome)).symm
      · have hnone := Column.grains_of_not_isTime hplain
        rw [grain_of_grains_nil hlocate hnone, grain_of_grains_nil hlocate' hnone]
    rw [hsame]

end

end Plan

/-- Games, and the most points made in them. -/
def monthlyGames : Model where
  tables := [
    { name := "games"
      source := .physical none "games"
      columns := [
        { name := "played", formula := "\x7b\x7b$played_at\x7d\x7d"
          kind := .timeDimension [{ grain := .month }] },
        { name := "record", formula := "\x7b\x7b$points\x7d\x7d"
          kind := .metric (some .max) [] }] }]

/-- The games in their model. -/
def playedGames : monthlyGames.Member := ⟨monthlyGames.tables.head (by decide), List.mem_cons_self⟩

/-- That a game was played since the middle of a January, or in a month that began since. -/
def playedSince (grain : Option Grain) : Predicate :=
  ⟨{ column := "played", grain }, .compare .ge, [.text "2024-01-15"]⟩

/-- The same, or that a record is high. -/
def playedOrHigh (grain : Option Grain) : Filter :=
  .or (.test (playedSince grain)) (.test ⟨{ column := "record" }, .compare .gt, [.int 100]⟩)

/-- The months of the games that meet a condition, and the record of each. -/
def monthlyRecords (condition : Filter) : Query where
  table := "games"
  arguments := .empty
  projections := [⟨{ column := "played", grain := some .month }, .timeDimension, "played"⟩,
    ⟨{ column := "record" }, .metric, "record"⟩]
  whereFilter := some condition
  havingFilter := none
  sorting := []
  pagination := none
  bypassCache := false

/-- The request for those records. -/
def monthlyRequest (condition : Filter) : Request where
  table := "games"
  select := [⟨{ column := "played", grain := some .month }, none⟩, ⟨{ column := "record" }, none⟩]
  filter := some condition

namespace Plan

/-- Whether what a predicate tests is the text. -/
def isText (text : String) : Except CompileError Sql.Expr → Bool
  | .ok (.raw sql) => sql == text
  | _ => false

theorem eq_of_isText {text : String} {tested : Except CompileError Sql.Expr}
    (h : isText text tested = true) : tested = .ok (.raw text) := by
  cases tested with
  | error e => cases h
  | ok e =>
    cases e <;> first | cases h | rw [eq_of_beq h]

/-- A predicate that names the month tests the month. -/
theorem groups_test_own_paths_month :
    let q := monthlyRecords (playedOrHigh (some .month))
    let t := playedSince (some .month)
    Query.build monthlyGames (monthlyRequest (playedOrHigh (some .month))) = .ok q ∧
    ∃ p f, build monthlyGames .postgres q = .ok p ∧ p.nested = false ∧
      t ∈ Filter.predicatesOf p.filters.groups ∧
      TestsAs .postgres q playedGames p t t.column f := by
  intro q t
  have hquery : Query.build monthlyGames (monthlyRequest (playedOrHigh (some .month))) = .ok q := by
    decide +kernel
  have hroot : monthlyGames.require q.table = .ok playedGames := rfl
  obtain ⟨p, hp, hshown⟩ := build_shown (d := .postgres)
    (fun p => !p.nested && (Filter.predicatesOf p.filters.groups).contains t)
    (show Placement.of monthlyGames q = .ok ⟨none, q.whereFilter⟩ by decide +kernel) hroot
    (by decide +kernel)
  rw [Bool.and_eq_true, Bool.not_eq_true', List.contains_iff_mem] at hshown
  obtain ⟨hsingle, ht⟩ := hshown
  obtain ⟨x, f, -, htests, hown⟩ := groups_test_own_paths hquery hroot hp hsingle ht
    (show locate playedGames t.column = .ok (playedGames, _) from rfl) rfl
  rw [hown (.inl rfl)] at htests
  exact ⟨hquery, p, f, hp, hsingle, ht, htests⟩

/-- A predicate that names no grain tests the time itself on rows, and the month on groups. -/
theorem groups_test_month_for_time :
    let q := monthlyRecords (playedOrHigh none)
    let q' := monthlyRecords (.test (playedSince none))
    let t := playedSince none
    Model.build monthlyGames.tables = .ok monthlyGames ∧ monthlyGames.check = .ok () ∧
    Query.build monthlyGames (monthlyRequest (playedOrHigh none)) = .ok q ∧
    Query.build monthlyGames (monthlyRequest (.test t)) = .ok q' ∧ q.isAggregated = true ∧
    ∃ p p', build monthlyGames .postgres q = .ok p ∧ build monthlyGames .postgres q' = .ok p' ∧
      p.nested = false ∧ p.compile.toOption.isSome ∧ p'.compile.toOption.isSome ∧
      t ∈ Filter.predicatesOf p.filters.groups ∧ t ∈ Filter.predicatesOf p'.filters.rows ∧
      p.groupColumn t = .ok (.raw "DATE_TRUNC('month', \"games\".\"played_at\")") ∧
      p'.rowColumn t = .ok (.raw "\"games\".\"played_at\"") ∧
      ((resolvePath ⟨.postgres, false⟩ (Scope.of playedGames .empty) t.column none).run' []).map
        (·.sql) = .ok "\"games\".\"played_at\"" ∧
      ¬ ∃ f, TestsAs .postgres q playedGames p t t.column f := by
  intro q q' t
  have hroot : monthlyGames.require q.table = .ok playedGames := rfl
  obtain ⟨p, hp, hshown⟩ := build_shown (d := .postgres)
    (fun p => (!p.nested && p.compile.toOption.isSome) &&
      ((Filter.predicatesOf p.filters.groups).contains t &&
        isText "DATE_TRUNC('month', \"games\".\"played_at\")" (p.groupColumn t)))
    (show Placement.of monthlyGames q = .ok ⟨none, q.whereFilter⟩ by decide +kernel) hroot
    (by decide +kernel)
  obtain ⟨p', hp', hshown'⟩ := build_shown (d := .postgres)
    (fun p => p.compile.toOption.isSome && ((Filter.predicatesOf p.filters.rows).contains t &&
      isText "\"games\".\"played_at\"" (p.rowColumn t)))
    (show Placement.of monthlyGames q' = .ok ⟨q'.whereFilter, none⟩ by decide +kernel) hroot
    (by decide +kernel)
  simp only [Bool.and_eq_true, Bool.not_eq_true', List.contains_iff_mem] at hshown hshown'
  obtain ⟨⟨hsingle, hcompile⟩, ht, hgroup⟩ := hshown
  obtain ⟨hcompile', ht', hrow⟩ := hshown'
  have hgroup := eq_of_isText hgroup
  have hrow := eq_of_isText hrow
  refine ⟨by decide +kernel, by decide +kernel, by decide +kernel, by decide +kernel, rfl, p, p', hp,
    hp', hsingle, hcompile, hcompile', ht, ht', hgroup, hrow, by decide +kernel, ?_⟩
  rintro ⟨f, htests⟩
  have hsame := htests.row (some (.test t)) none p' hp' t ht' rfl
  have hmonth := htests.group
  rw [hrow, Except.ok.injEq, Sql.Expr.raw.injEq] at hsame
  rw [hgroup, ← hsame, Except.ok.injEq, Sql.Expr.raw.injEq] at hmonth
  revert hmonth
  decide

end Plan

end Rollup
