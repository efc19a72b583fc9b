/-
One query in two dialects. Planning asks for the same columns in the same order whatever the
dialect, and what one memory holds the other holds too, so two plans have the same parts, their
texts being what the same columns expand to in the one dialect and in the other. What a plan binds,
counts and returns does not depend on these texts; whether metrics are aggregated twice does, and
so it depends on whether the texts of a metric call aggregates together.
-/
import Rollup.Proofs.Compile.Nesting
import Rollup.Proofs.Compile.Total
import Rollup.Proofs.Expansion.Dialects

namespace Rollup

/-- The same column of a result, perhaps under another label. -/
def OutputColumn.SameButLabel (c c' : OutputColumn) : Prop :=
  c' = { c with label := c'.label }

/-- What a query compiles to is the same but for the texts, the labels and the passes. -/
structure Compiled.SameResult (c c' : Compiled) : Prop where
  params : c.main.params = c'.main.params
  count : c.count.map (·.params) = c'.count.map (·.params)
  dataSource : c.dataSource = c'.dataSource
  columns : List.Forall₂ OutputColumn.SameButLabel c.columns c'.columns

namespace Plan

section

variable {m : Model} {d d' : Dialect} {scope : Scope m} {memo memo' memo₁ memo₁' : Memo}

/-- What one column comes to in the one dialect and in the other. -/
def Beside (d d' : Dialect) (scope : Scope m) (f f' : Fragment) : Prop :=
  ∃ path column arguments grain,
    expandColumn ⟨d, false⟩ scope path column arguments grain = .ok f ∧
      expandColumn ⟨d', false⟩ scope path column arguments grain = .ok f'

/-- Memories that hold the same columns. -/
def MemoryBeside (d d' : Dialect) (scope : Scope m) (memo memo' : Memo) : Prop :=
  List.Forall₂ (fun e e' => e.1 = e'.1 ∧ Beside d d' scope e.2 e'.2) memo memo'

/-- A metric with its texts in two dialects. -/
structure MetricBeside (d d' : Dialect) (scope : Scope m) (s s' : Metric) : Prop where
  path : s.path = s'.path
  aggregation : s.aggregation = s'.aggregation
  sql : ∃ f f', Beside d d' scope f f' ∧ s.sql = f.sql ∧ s'.sql = f'.sql

/-- A projection with its texts in two dialects. -/
def OutputBeside (d d' : Dialect) (scope : Scope m) (o o' : Output) : Prop :=
  ∃ x c f f', Beside d d' scope f f' ∧ o = Projection.output d x c f.sql ∧
    o' = Projection.output d' x c f'.sql

/-! ## Looking up and expanding -/

theorem MemoryBeside.lookup (h : MemoryBeside d d' scope memo memo') (k : MemoKey) :
    Option.Rel (Beside d d' scope) (memo.lookup k) (memo'.lookup k) := by
  induction h with
  | nil => exact .none
  | @cons e e' _ _ he _ ih =>
    obtain ⟨key, f⟩ := e
    obtain ⟨key', f'⟩ := e'
    obtain ⟨rfl, hf⟩ : key = key' ∧ Beside d d' scope f f' := he
    rw [List.lookup_cons, List.lookup_cons]
    cases k == key with
    | true => exact .some hf
    | false => exact ih

theorem resolveColumn_beside {path : JoinPath} {column : String} {arguments : Arguments}
    {grain : Option Grain} {f f' : Fragment} (hmemo : MemoryBeside d d' scope memo memo')
    (h : (resolveColumn ⟨d, false⟩ scope path column arguments grain).run memo = .ok (f, memo₁))
    (h' : (resolveColumn ⟨d', false⟩ scope path column arguments grain).run memo' =
      .ok (f', memo₁')) :
    MemoryBeside d d' scope memo₁ memo₁' ∧ Beside d d' scope f f' := by
  have hlookup := hmemo.lookup (expansionKey scope path column arguments grain)
  rcases resolveColumn_cases h with ⟨hf, rfl⟩ | ⟨hnone, hf, rfl⟩ <;>
    rcases resolveColumn_cases h' with ⟨hf', rfl⟩ | ⟨hnone', hf', rfl⟩
  · rw [hf, hf'] at hlookup
    cases hlookup with
    | some hbeside => exact ⟨hmemo, hbeside⟩
  · rw [hf, hnone'] at hlookup
    cases hlookup
  · rw [hnone, hf'] at hlookup
    cases hlookup
  · have hbeside : Beside d d' scope f f' := ⟨path, column, arguments, grain, hf, hf'⟩
    exact ⟨.cons ⟨rfl, hbeside⟩ hmemo, hbeside⟩

/-! ## The parts of a plan -/

theorem outputsOf_beside {taken taken' : List String} {xs : List Projection}
    {os os' : List Output} {joins joins' : List JoinPath}
    (hmemo : MemoryBeside d d' scope memo memo')
    (h : (outputsOf ⟨d, false⟩ scope taken xs).run memo = .ok ((os, joins), memo₁))
    (h' : (outputsOf ⟨d', false⟩ scope taken' xs).run memo' = .ok ((os', joins'), memo₁')) :
    MemoryBeside d d' scope memo₁ memo₁' ∧ List.Forall₂ (OutputBeside d d' scope) os os' := by
  induction xs generalizing taken taken' memo memo' os os' joins joins' with
  | nil =>
    cases h
    cases h'
    exact ⟨hmemo, .nil⟩
  | cons x xs ih =>
    unfold outputsOf at h h'
    obtain ⟨⟨o, _⟩, _, ho, h⟩ := run_bind_ok h
    obtain ⟨⟨rest, _⟩, _, hrest, h⟩ := run_bind_ok h
    cases h
    obtain ⟨⟨o', _⟩, _, ho', h'⟩ := run_bind_ok h'
    obtain ⟨⟨rest', _⟩, _, hrest', h'⟩ := run_bind_ok h'
    cases h'
    obtain ⟨t, c, f, hlocate, hf, rfl, -, -⟩ := outputOf_run ho
    obtain ⟨t', c', f', hlocate', hf', rfl, -, -⟩ := outputOf_run ho'
    cases hlocate.symm.trans hlocate'
    obtain ⟨hmemo, hbeside⟩ := resolveColumn_beside hmemo hf hf'
    obtain ⟨hmemo, hall⟩ := ih hmemo hrest hrest'
    exact ⟨hmemo, .cons ⟨x, c, f, f', hbeside, rfl, rfl⟩ hall⟩

theorem any_sameColumn_beside {known known' : List Metric}
    (h : List.Forall₂ (MetricBeside d d' scope) known known') (x : Path) :
    known.any (·.path.sameColumn x) = known'.any (·.path.sameColumn x) := by
  induction h with
  | nil => rfl
  | cons hs _ ih => rw [List.any_cons, List.any_cons, hs.path, ih]

theorem hiddenOf_beside {known known' ss ss' : List Metric} {ts : List Predicate}
    {joins joins' : List JoinPath} (hmemo : MemoryBeside d d' scope memo memo')
    (hknown : List.Forall₂ (MetricBeside d d' scope) known known')
    (h : (hiddenOf ⟨d, false⟩ scope known ts).run memo = .ok ((ss, joins), memo₁))
    (h' : (hiddenOf ⟨d', false⟩ scope known' ts).run memo' = .ok ((ss', joins'), memo₁')) :
    List.Forall₂ (MetricBeside d d' scope) ss ss' := by
  induction ts generalizing known known' memo memo' ss ss' joins joins' with
  | nil =>
    cases h
    cases h'
    exact .nil
  | cons t ts ih =>
    unfold hiddenOf at h h'
    obtain ⟨⟨u, c⟩, _, hlift, h⟩ := run_bind_ok h
    obtain ⟨_, hlocate, hlift⟩ := bind_ok hlift
    cases hlift
    obtain ⟨⟨u', c'⟩, _, hlift', h'⟩ := run_bind_ok h'
    obtain ⟨_, hlocate', hlift'⟩ := bind_ok hlift'
    cases hlift'
    cases hlocate.symm.trans hlocate'
    dsimp only at h h'
    rw [← any_sameColumn_beside hknown] at h'
    split at h
    · rename_i hskip
      rw [if_pos hskip] at h'
      exact ih hmemo hknown h h'
    · rename_i hread
      rw [if_neg hread] at h'
      obtain ⟨f, _, hf, h⟩ := run_bind_ok h
      obtain ⟨⟨rest, _⟩, _, hrest, h⟩ := run_bind_ok h
      cases h
      obtain ⟨f', _, hf', h'⟩ := run_bind_ok h'
      obtain ⟨⟨rest', _⟩, _, hrest', h'⟩ := run_bind_ok h'
      cases h'
      obtain ⟨hmemo, hbeside⟩ := resolveColumn_beside hmemo hf hf'
      have hs : ∀ label label', MetricBeside d d' scope ⟨t.column, f.sql, c.aggregation, label⟩
          ⟨t.column, f'.sql, c.aggregation, label'⟩ := fun _ _ =>
        ⟨rfl, rfl, f, f', hbeside, rfl, rfl⟩
      exact .cons (hs _ _) (ih hmemo (List.rel_append hknown (.cons (hs _ _) .nil)) hrest hrest')

theorem projectedMetrics_beside {os os' : List Output}
    (h : List.Forall₂ (OutputBeside d d' scope) os os') :
    List.Forall₂ (MetricBeside d d' scope) (projectedMetrics os) (projectedMetrics os') := by
  induction h with
  | nil => exact .nil
  | cons ho _ ih =>
    obtain ⟨x, c, f, f', hbeside, rfl, rfl⟩ := ho
    cases hrole : x.role == .metric with
    | true =>
      simp only [projectedMetrics, List.filterMap_cons, Projection.output, hrole, if_true]
      exact .cons ⟨rfl, rfl, f, f', hbeside, rfl, rfl⟩ ih
    | false =>
      simp only [projectedMetrics, List.filterMap_cons, Projection.output, hrole,
        Bool.false_eq_true, if_false]
      exact ih

theorem length_groupings_beside {os os' : List Output}
    (h : List.Forall₂ (OutputBeside d d' scope) os os') :
    (groupings os).length = (groupings os').length := by
  induction h with
  | nil => rfl
  | cons ho _ ih =>
    obtain ⟨x, c, f, f', -, rfl, rfl⟩ := ho
    cases hrole : x.role == .metric <;>
      simpa [groupings, Projection.output, hrole] using ih

/-! ## Plans -/

/-- Plans of one query in two dialects. -/
structure DrawnBeside (d d' : Dialect) (scope : Scope m) (p p' : Plan) : Prop where
  root : p.root = p'.root
  query : p.query = p'.query
  filters : p.filters = p'.filters
  outputs : List.Forall₂ (OutputBeside d d' scope) p.outputs p'.outputs
  hidden : List.Forall₂ (MetricBeside d d' scope) p.hidden p'.hidden

theorem Drafted.beside {q : Query} {root : m.Member} {filters : Placement} {p p' : Plan}
    {required required' : List JoinPath} (h : Drafted d q root filters required p)
    (h' : Drafted d' q root filters required' p') :
    DrawnBeside d d' (Scope.of root q.arguments) p p' := by
  obtain ⟨_, _, _, _, _, _, _, _, houtputs, hhidden, -⟩ := h.runs
  obtain ⟨_, _, _, _, _, _, _, _, houtputs', hhidden', -⟩ := h'.runs
  obtain ⟨hmemo, houtputs⟩ := outputsOf_beside .nil houtputs houtputs'
  exact {
    root := h.root_eq.trans h'.root_eq.symm
    query := h.query.trans h'.query.symm
    filters := h.filters_eq.trans h'.filters_eq.symm
    outputs := houtputs
    hidden := hiddenOf_beside hmemo (projectedMetrics_beside houtputs) hhidden hhidden' }

theorem build_beside {q : Query} {p p' : Plan} (h : build m d q = .ok p)
    (h' : build m d' q = .ok p') :
    ∃ root, DrawnBeside d d' (Scope.of (m := m) root q.arguments) p p' := by
  obtain ⟨filters, root, _, hfilters, hroot, hp, -⟩ := build_drafted h
  obtain ⟨filters', root', _, hfilters', hroot', hp', -⟩ := build_drafted h'
  cases hfilters.symm.trans hfilters'
  cases hroot.symm.trans hroot'
  exact ⟨root, hp.beside hp'⟩

namespace DrawnBeside

variable {p p' : Plan}

theorem metrics (h : DrawnBeside d d' scope p p') :
    List.Forall₂ (MetricBeside d d' scope) p.metrics p'.metrics :=
  List.rel_append (projectedMetrics_beside h.outputs) h.hidden

theorem columns (h : DrawnBeside d d' scope p p') :
    List.Forall₂ OutputColumn.SameButLabel p.columns p'.columns := by
  rw [Plan.columns, Plan.columns, List.forall₂_map_left_iff, List.forall₂_map_right_iff]
  refine h.outputs.imp ?_
  rintro _ _ ⟨x, c, f, f', -, rfl, rfl⟩
  rfl

theorem wantsCount (h : DrawnBeside d d' scope p p') : p.wantsCount = p'.wantsCount := by
  have hlength : p.dimensions.length = p'.dimensions.length := length_groupings_beside h.outputs
  have hempty : p.dimensions.isEmpty = p'.dimensions.isEmpty := by
    rw [Bool.eq_iff_iff, List.isEmpty_iff_length_eq_zero, List.isEmpty_iff_length_eq_zero, hlength]
  rw [Plan.wantsCount, Plan.wantsCount, h.query, hempty]

/-- What is aggregated twice in one dialect is in another, unless that is MySQL and a call stands
behind a quarter. -/
theorem nested (h : DrawnBeside d d' scope p p') (hnames : m.NamedByIdentifiers)
    (hformulas : d' = .mysql → m.SpacesColumns ∨ m.FixesNoQuarter) (hnested : p.nested = true) :
    p'.nested = true := by
  obtain ⟨s, hs, htwo⟩ := List.any_eq_true.1 hnested
  obtain ⟨s', hs', hbeside⟩ := exists_beside h.metrics hs
  refine List.any_eq_true.2 ⟨s', hs', ?_⟩
  obtain ⟨f, f', ⟨path, column, arguments, grain, hf, hf'⟩, hsql, hsql'⟩ := hbeside.sql
  rw [Metric.twoPass, Bool.and_eq_true] at htwo ⊢
  rw [← hbeside.aggregation, hsql']
  rw [hsql] at htwo
  obtain ⟨anywhere, hm⟩ := Expansion.comparable_of_named hnames hformulas
  exact htwo.imp_right (Expansion.expandColumn_embedsAggregate hm hf hf')

end DrawnBeside

/-- What compiling reads off a plan: the values bound by its conditions, for the count as well if
rows are to be counted. -/
theorem compile_params {p : Plan} {c : Compiled} (hp : p.Fitting) (h : p.compile = .ok c) :
    c.main.params = boundBy p.filters.rows ++ boundBy p.filters.groups ∧
      c.count.map (·.params) = if p.wantsCount then
        some (boundBy p.filters.rows ++ boundBy p.filters.groups) else none := by
  refine ⟨(numbered_of_binds (binds_main hp) (compile_ok h).1).params, ?_⟩
  split
  · rename_i hwants
    obtain ⟨st, hst, hcount⟩ := compile_count h hwants
    rw [hst, Option.map_some, (numbered_of_binds (binds_countSelect hp) hcount).params]
  · rename_i hnot
    obtain ⟨main, -, h⟩ := bind_ok h
    rw [if_neg hnot] at h
    cases h
    rfl

end

end Plan

/-- What a query returns does not depend on the dialect it is compiled for. -/
theorem sameResult_of_compile {m : Model} {d d' : Dialect} {q : Query} {c c' : Compiled}
    (h : compile m d q = .ok c) (h' : compile m d' q = .ok c') : c.SameResult c' := by
  obtain ⟨p, hbuild, hcompile⟩ := bind_ok h
  obtain ⟨p', hbuild', hcompile'⟩ := bind_ok h'
  obtain ⟨root, hbeside⟩ := Plan.build_beside hbuild hbuild'
  obtain ⟨hparams, hcount⟩ :=
    Plan.compile_params (Placement.fits_of_placed (Plan.build_ok hbuild).2) hcompile
  obtain ⟨hparams', hcount'⟩ :=
    Plan.compile_params (Placement.fits_of_placed (Plan.build_ok hbuild').2) hcompile'
  obtain ⟨-, -, hsource, hcolumns⟩ := Plan.compile_rest hcompile
  obtain ⟨-, -, hsource', hcolumns'⟩ := Plan.compile_rest hcompile'
  refine ⟨?_, ?_, ?_, ?_⟩
  · rw [hparams, hparams', hbeside.filters]
  · rw [hcount, hcount', hbeside.filters, hbeside.wantsCount]
  · rw [hsource, hsource', hbeside.root]
  · rw [hcolumns, hcolumns']
    exact hbeside.columns

theorem nested_of_compile_in {m : Model} {d d' : Dialect} {q : Query} {c c' : Compiled}
    (hnames : m.NamedByIdentifiers)
    (hformulas : d' = .mysql → d = .mysql ∨ m.SpacesColumns ∨ m.FixesNoQuarter)
    (h : compile m d q = .ok c) (h' : compile m d' q = .ok c') (hnested : c.nested = true) :
    c'.nested = true := by
  by_cases hd : d = d'
  · subst hd
    cases h.symm.trans h'
    exact hnested
  · obtain ⟨p, hbuild, hcompile⟩ := bind_ok h
    obtain ⟨p', hbuild', hcompile'⟩ := bind_ok h'
    obtain ⟨root, hbeside⟩ := Plan.build_beside hbuild hbuild'
    rw [Plan.nested_of_compile hcompile] at hnested
    rw [Plan.nested_of_compile hcompile']
    refine hbeside.nested hnames (fun hmysql => ?_) hnested
    exact (hformulas hmysql).resolve_left fun h => hd (h.trans hmysql.symm)

/-- A query compiles in two dialects to statements with the same parameters, to a count in both or
in neither, for the same data source, and with columns that differ in their labels alone. What is
aggregated twice in MySQL is in every dialect; and what is in one of two dialects is in the other if
both or neither is MySQL, if no word or placeholder stands directly behind a column in a formula, or
if no formula takes a column to the quarter. -/
theorem compile_sameResult {m : Model} {d d' : Dialect} {q : Query} {c c' : Compiled}
    (hnames : m.NamedByIdentifiers) (h : compile m d q = .ok c) (h' : compile m d' q = .ok c') :
    c.SameResult c' ∧ (d = .mysql → c.nested = true → c'.nested = true) ∧
      ((d = .mysql ↔ d' = .mysql) ∨ m.SpacesColumns ∨ m.FixesNoQuarter →
        c.nested = c'.nested) := by
  refine ⟨sameResult_of_compile h h', fun hd => ?_, fun hformulas => ?_⟩
  · exact nested_of_compile_in hnames (fun _ => .inl hd) h h'
  · rw [Bool.eq_iff_iff]
    constructor
    · exact nested_of_compile_in hnames (fun hd => hformulas.imp_left fun hboth => hboth.2 hd) h h'
    · exact nested_of_compile_in hnames (fun hd => hformulas.imp_left fun hboth => hboth.1 hd) h' h

/-- Games by team and quarter, and a metric of them. -/
def quarterPeaks (formula : String) (aggregation : Aggregation) : Model where
  tables := [
    { name := "games"
      source := .physical none "games"
      columns := [
        { name := "team", formula := "\x7b\x7b$team\x7d\x7d", kind := .dimension },
        { name := "played", formula := "\x7b\x7b$played_at\x7d\x7d"
          kind := .timeDimension [{ grain := .quarter }] },
        { name := "peak", formula, kind := .metric (some aggregation) [] }] }]

/-- The metric of the first teams, and how many teams there are. -/
def firstPeaks : Query :=
  { teamMetric "peak" with pagination := some { limit := some 5, wantTotal := true } }

/-- What a draft shows of a plan: whether it is nested, and that it compiles with a count. -/
def Plan.showsNested (nested : Bool) (p : Plan) : Bool :=
  p.nested == nested && p.compile.toOption.any (·.count.isSome)

theorem compile_firstPeaks {formula : String} {aggregation : Aggregation} {d : Dialect}
    {nested : Bool} (hfilters : Placement.of (quarterPeaks formula aggregation) firstPeaks = .ok {})
    {root : (quarterPeaks formula aggregation).Member}
    (hroot : (quarterPeaks formula aggregation).require "games" = .ok root)
    (h : ((Plan.draft d firstPeaks root {}).run' []).map
      (fun r => (r.2, Plan.showsNested nested { r.1 with joins := [] })) = .ok ([], true)) :
    ∃ c, compile (quarterPeaks formula aggregation) d firstPeaks = .ok c ∧ c.nested = nested ∧
      c.count.isSome = true := by
  obtain ⟨p, hp, hshows⟩ := Plan.build_shown (Plan.showsNested nested) hfilters hroot h
  rw [Plan.showsNested, Bool.and_eq_true, beq_iff_eq, Option.any_eq_true] at hshows
  obtain ⟨hnested, c, hc, hcount⟩ := hshows
  have hcompile : p.compile = .ok c := ok_of_toOption hc
  exact ⟨c, (compile_of_build hp).trans hcompile, (Plan.nested_of_compile hcompile).trans hnested,
    hcount⟩

/-- How many last quarters of games there are, the quarter being taken by the formula. -/
def lastQuarters : Model :=
  quarterPeaks "MAX(\x7b\x7bsql column='played[grain:quarter]'\x7d\x7d)" .count

/-- A parenthesis stands behind the quarter, so even MySQL aggregates twice. -/
theorem compile_sameResult_lastQuarters :
    Model.build lastQuarters.tables = .ok lastQuarters ∧ lastQuarters.NamedByIdentifiers ∧
    lastQuarters.SpacesColumns ∧ ¬ lastQuarters.FixesNoQuarter ∧
    ∃ c c', compile lastQuarters .postgres firstPeaks = .ok c ∧
      compile lastQuarters .mysql firstPeaks = .ok c' ∧ c.SameResult c' ∧
      c.count.isSome = true ∧ c.nested = true ∧ c'.nested = true := by
  have hnames : lastQuarters.NamedByIdentifiers := by decide +kernel
  have hspaced : lastQuarters.SpacesColumns := by decide +kernel
  obtain ⟨c, hc, hnested, hcount⟩ : ∃ c, compile lastQuarters .postgres firstPeaks = .ok c ∧
      c.nested = true ∧ c.count.isSome = true :=
    compile_firstPeaks (by decide +kernel) rfl (by decide +kernel)
  obtain ⟨c', hc', -⟩ : ∃ c, compile lastQuarters .mysql firstPeaks = .ok c ∧
      c.nested = true ∧ c.count.isSome = true :=
    compile_firstPeaks (by decide +kernel) rfl (by decide +kernel)
  obtain ⟨hsame, -, hboth⟩ := compile_sameResult hnames hc hc'
  exact ⟨by decide +kernel, hnames, hspaced, by decide +kernel, c, c', hc, hc', hsame, hcount,
    hnested, (hboth (.inr (.inl hspaced))).symm.trans hnested⟩

/-- The points of games, with a remark in the formula. -/
def remarkedPoints : Model :=
  quarterPeaks ("/* \x7b\x7bsql column='played[grain:quarter]'\x7d\x7dmax( */ " ++
    "\x7b\x7b$points\x7d\x7d") .sum

/-- In MySQL the quarter runs on into the word behind it, so what reads as a call of `max` in
Postgres is none there, and MySQL aggregates once. -/
theorem compile_nested_remarkedPoints :
    Model.build remarkedPoints.tables = .ok remarkedPoints ∧ remarkedPoints.NamedByIdentifiers ∧
    ∃ c c', compile remarkedPoints .postgres firstPeaks = .ok c ∧
      compile remarkedPoints .mysql firstPeaks = .ok c' ∧ c.nested = true ∧ c'.nested = false := by
  obtain ⟨c, hc, hnested, -⟩ : ∃ c, compile remarkedPoints .postgres firstPeaks = .ok c ∧
      c.nested = true ∧ c.count.isSome = true :=
    compile_firstPeaks (by decide +kernel) rfl (by decide +kernel)
  obtain ⟨c', hc', hnested', -⟩ : ∃ c, compile remarkedPoints .mysql firstPeaks = .ok c ∧
      c.nested = false ∧ c.count.isSome = true :=
    compile_firstPeaks (by decide +kernel) rfl (by decide +kernel)
  exact ⟨by decide +kernel, by decide +kernel, c, c', hc, hc', hnested, hnested'⟩

end Rollup
