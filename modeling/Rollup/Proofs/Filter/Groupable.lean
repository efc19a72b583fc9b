/-
Which conditions can be placed. In a query with metrics, a condition must be one that can be tested
either on the rows before they are grouped or on the groups: the table's own dimensions have to be
grouped by, a metric that is tested row by row must not aggregate, and what shares a part with a
test of groups must be a test of groups or of a grouped dimension. These three are all there is to
it. The parts that test groups are then the conditions on groups, and the others those on rows.

Each function is met by one lemma that says when it succeeds and with what; the lemma of a caller
follows from those of the functions it calls.
-/
import Rollup.Proofs.Filter.Placement

namespace Rollup

namespace Filter

/-- What a chain of `and` joins is no such chain itself. -/
theorem conjuncts_of_mem {f g : Filter} (h : g ∈ f.conjuncts) : g.conjuncts = [g] := by
  induction f with
  | and a b iha ihb =>
    rcases List.mem_append.1 h with h | h
    · exact iha h
    · exact ihb h
  | or a b =>
    rw [List.mem_singleton.1 h]
    rfl
  | not f =>
    rw [List.mem_singleton.1 h]
    rfl
  | test p =>
    rw [List.mem_singleton.1 h]
    rfl

theorem conjuncts_foldl_and (f : Filter) (fs : List Filter) :
    (fs.foldl and f).conjuncts = f.conjuncts ++ fs.flatMap conjuncts := by
  induction fs generalizing f with
  | nil => simp
  | cons g fs ih => rw [List.foldl_cons, ih, conjuncts, List.flatMap_cons, List.append_assoc]

/-- Parts that were put together are found again. -/
theorem flatMap_conjuncts_all? {fs : List Filter} (h : ∀ f ∈ fs, f.conjuncts = [f]) :
    (all? fs).toList.flatMap conjuncts = fs := by
  have hparts : fs.flatMap conjuncts = fs := by
    rw [List.flatMap_congr h, List.flatMap_singleton']
  cases fs with
  | nil => rfl
  | cons f fs =>
    rw [all?, Option.toList_some, List.flatMap_singleton, conjuncts_foldl_and,
      ← List.flatMap_cons, hparts]

end Filter

namespace Placement

open Rollup.Filter

/-- The parts of both filters of a query, each beside the filter it comes from. -/
def partsOf (q : Query) : List (Clause × Filter) :=
  (((q.whereFilter.map pushNot).toList.flatMap conjuncts).map fun part => (.rows, part)) ++
    (((q.havingFilter.map pushNot).toList.flatMap conjuncts).map fun part => (.groups, part))

section

variable {m : Model} (q : Query) (root : m.Member)

/-- Whether a predicate is about a metric. -/
def onMetric (p : Predicate) : Bool :=
  match locate root p.column with
  | .ok (_, c) => c.isMetric
  | .error _ => false

/-- Whether a predicate is tested on groups: it is about a metric that is projected, or it stands
in the filter on groups. -/
def onGroups (origin : Clause) (p : Predicate) : Bool :=
  onMetric root p && (origin == .groups || (q.metricProjection? p.column).isSome)

/-- Whether a predicate is about a dimension that is grouped by. -/
def onGrouped (p : Predicate) : Bool :=
  !onMetric root p && (q.groupingProjection? p.column).isSome

/-- Whether a part of a filter has a predicate that is tested on groups. -/
def partOnGroups (part : Clause × Filter) : Bool :=
  part.2.predicates.any (onGroups q root part.1)

/-- The text of a metric for single rows does not aggregate. -/
def Unaggregated (p : Predicate) : Prop :=
  ∃ f, expandColumn ⟨.duckdb, false⟩ (Scope.of root q.arguments) p.column.joins p.column.column
    p.column.arguments none = .ok f ∧ Sql.embedsAggregate f.sql = false

/-- The filters of a query with metrics can be tested on its rows and its groups. -/
structure Groupable : Prop where
  /-- The table's own dimensions are grouped by. -/
  dimensions : ∀ p ∈ predicatesOf q.whereFilter ++ predicatesOf q.havingFilter,
    onMetric root p = false → p.column.joins = [] → (q.groupingProjection? p.column).isSome = true
  /-- What is tested on rows does not aggregate. -/
  metrics : ∀ p ∈ predicatesOf q.whereFilter,
    onMetric root p = true → q.metricProjection? p.column = none → Unaggregated q root p
  /-- What stands beside a test of groups in one part is tested on groups or grouped by. -/
  parts : ∀ part ∈ partsOf q, (∃ p ∈ part.2.predicates, onGroups q root part.1 p = true) →
    ∀ p ∈ part.2.predicates, onGroups q root part.1 p = false → onGrouped q root p = true

end

section

variable {m : Model} {q : Query} {root : m.Member} {origin : Clause} {p : Predicate}

/-! ## Predicates -/

theorem checkRawMetric_ok_iff : checkRawMetric q root p = .ok () ↔ Unaggregated q root p := by
  constructor
  · intro h
    obtain ⟨f, hf, h⟩ := bind_ok h
    split at h
    · cases h
    · rename_i hquiet
      exact ⟨f, hf, by simpa using hquiet⟩
  · rintro ⟨f, hf, hquiet⟩
    unfold checkRawMetric
    rw [hf]
    show (if Sql.embedsAggregate f.sql then _ else _) = _
    rw [if_neg (by simp [hquiet])]
    rfl

/-- What a predicate on its own needs. -/
structure Placeable (q : Query) (root : m.Member) (origin : Clause) (p : Predicate) : Prop where
  dimension : onMetric root p = false → p.column.joins = [] →
    (q.groupingProjection? p.column).isSome = true
  metric : onMetric root p = true → onGroups q root origin p = false → Unaggregated q root p

/-- The clause of a predicate. -/
def clauseOf (q : Query) (root : m.Member) (origin : Clause) (p : Predicate) : Clause :=
  if onGroups q root origin p then .groups else .rows

theorem clauseOf_eq_rows_iff :
    clauseOf q root origin p = .rows ↔ onGroups q root origin p = false := by
  unfold clauseOf
  cases onGroups q root origin p <;> decide

theorem onMetric_of_locate {found : m.Member × Column} (h : locate root p.column = .ok found) :
    onMetric root p = found.2.isMetric := by
  unfold onMetric
  rw [h]

theorem place_ok_iff {found : m.Member × Column} (hlocate : locate root p.column = .ok found)
    (c : Clause) :
    place q root origin p = .ok c ↔
      Placeable q root origin p ∧ c = clauseOf q root origin p := by
  have hmetric := onMetric_of_locate hlocate
  obtain ⟨t, column⟩ := found
  unfold place
  rw [hlocate]
  show (if column.isMetric then _ else _) = _ ↔ _
  by_cases hm : column.isMetric = true
  · rw [if_pos hm]
    replace hmetric : onMetric root p = true := hmetric.trans hm
    by_cases hg : (origin == .groups || (q.metricProjection? p.column).isSome) = true
    · rw [if_pos hg]
      have hon : onGroups q root origin p = true := by rw [onGroups, hmetric, hg]; rfl
      have hclause : clauseOf q root origin p = .groups := by rw [clauseOf, if_pos hon]
      rw [hclause]
      constructor
      · intro h
        cases h
        refine ⟨⟨?_, ?_⟩, rfl⟩
        · intro h
          rw [hmetric] at h
          cases h
        · intro _ h
          rw [hon] at h
          cases h
      · rintro ⟨-, rfl⟩
        rfl
    · rw [if_neg hg]
      have hoff : onGroups q root origin p = false := by
        rw [onGroups, hmetric, Bool.true_and]
        simpa using hg
      have hclause : clauseOf q root origin p = .rows := clauseOf_eq_rows_iff.2 hoff
      rw [hclause]
      constructor
      · intro h
        obtain ⟨_, hraw, h⟩ := bind_ok h
        cases h
        refine ⟨⟨?_, fun _ _ => checkRawMetric_ok_iff.1 hraw⟩, rfl⟩
        intro h
        rw [hmetric] at h
        cases h
      · rintro ⟨⟨-, hraw⟩, rfl⟩
        show (checkRawMetric q root p >>= fun _ => pure Clause.rows) = _
        rw [checkRawMetric_ok_iff.2 (hraw hmetric hoff)]
        rfl
  · rw [if_neg hm]
    replace hmetric : onMetric root p = false := by rw [hmetric]; simpa using hm
    have hoff : onGroups q root origin p = false := by rw [onGroups, hmetric]; rfl
    have hclause : clauseOf q root origin p = .rows := clauseOf_eq_rows_iff.2 hoff
    rw [hclause]
    by_cases hg : (p.column.joins.isEmpty && (q.groupingProjection? p.column).isNone) = true
    · rw [if_pos hg]
      rw [Bool.and_eq_true, List.isEmpty_iff, Option.isNone_iff_eq_none] at hg
      constructor
      · intro h
        cases h
      · rintro ⟨⟨hdimension, -⟩, -⟩
        have := hdimension hmetric hg.1
        rw [hg.2] at this
        cases this
    · rw [if_neg hg]
      constructor
      · intro h
        cases h
        refine ⟨⟨?_, ?_⟩, rfl⟩
        · intro _ hjoins
          rw [hjoins, List.isEmpty_nil, Bool.true_and, Option.isNone_iff_eq_none] at hg
          exact Option.isSome_iff_ne_none.2 hg
        · intro h
          rw [hmetric] at h
          cases h
      · rintro ⟨-, rfl⟩
        rfl

theorem checkPromotable_ok_iff {found : m.Member × Column}
    (hlocate : locate root p.column = .ok found) :
    checkPromotable q root p = .ok () ↔ onGrouped q root p = true := by
  have hmetric := onMetric_of_locate hlocate
  obtain ⟨t, column⟩ := found
  unfold checkPromotable onGrouped
  rw [hlocate, hmetric]
  show (if column.isMetric then _ else if _ then _ else _) = _ ↔ _
  dsimp only
  cases column.isMetric with
  | true =>
    constructor
    · intro h; cases h
    · intro h; cases h
  | false =>
    cases q.groupingProjection? p.column with
    | none =>
      constructor
      · intro h; cases h
      · intro h; cases h
    | some d => exact ⟨fun _ => rfl, fun _ => rfl⟩

/-! ## Parts -/

/-- What a part needs beside the needs of its predicates: with a test of groups in it, all are such
tests or about what is grouped by. -/
def Mixable (q : Query) (root : m.Member) (part : Clause × Filter) : Prop :=
  partOnGroups q root part = true → ∀ p ∈ part.2.predicates,
    onGroups q root part.1 p = false → onGrouped q root p = true

/-- The clause of a part. -/
def partClause (q : Query) (root : m.Member) (part : Clause × Filter) : Clause :=
  if partOnGroups q root part then .groups else .rows

theorem all_clauseOf_eq_rows (part : Filter) :
    (part.predicates.map fun p => (p, clauseOf q root origin p)).all (·.2 == .rows) =
      !partOnGroups q root (origin, part) := by
  unfold partOnGroups
  induction part.predicates with
  | nil => rfl
  | cons p ps ih =>
    rw [List.map_cons, List.all_cons, List.any_cons, Bool.not_or, ih]
    unfold clauseOf
    cases onGroups q root origin p <;> rfl

/-- Every predicate of a part leads to a column. -/
def Located (root : m.Member) (ps : List Predicate) : Prop :=
  ∀ p ∈ ps, ∃ found, locate root p.column = .ok found

theorem placePart_ok_iff {part : Filter} (hlocated : Located root part.predicates) (c : Clause) :
    placePart q root origin part = .ok c ↔
      ((∀ p ∈ part.predicates, Placeable q root origin p) ∧ Mixable q root (origin, part)) ∧
        c = partClause q root (origin, part) := by
  have hplaced : ∀ placed : List (Predicate × Clause),
      (part.predicates.mapM fun p => (place q root origin p).map fun c => (p, c)) = .ok placed ↔
        (∀ p ∈ part.predicates, Placeable q root origin p) ∧
          placed = part.predicates.map fun p => (p, clauseOf q root origin p) := by
    intro placed
    refine mapM_ok_iff fun p hp r => ?_
    obtain ⟨found, hfound⟩ := hlocated p hp
    rw [map_ok_iff]
    constructor
    · rintro ⟨c, hc, rfl⟩
      obtain ⟨hp, rfl⟩ := (place_ok_iff hfound c).1 hc
      exact ⟨hp, rfl⟩
    · rintro ⟨hp, rfl⟩
      exact ⟨_, (place_ok_iff hfound _).2 ⟨hp, rfl⟩, rfl⟩
  -- once placed, the part is refused only for a predicate beside a test of groups
  have hpromoted : ((part.predicates.map fun p => (p, clauseOf q root origin p)).forM
      fun r => if r.2 == Clause.rows then checkPromotable q root r.1 else .ok ()) = .ok () ↔
        ∀ p ∈ part.predicates, onGroups q root origin p = false → onGrouped q root p = true := by
    rw [forM_ok_iff, List.forall_mem_map]
    refine forall₂_congr fun p hp => ?_
    obtain ⟨found, hfound⟩ := hlocated p hp
    rw [← clauseOf_eq_rows_iff, ← checkPromotable_ok_iff hfound]
    show (if clauseOf q root origin p == .rows then _ else _) = _ ↔ _
    cases clauseOf q root origin p with
    | rows => exact ⟨fun h _ => h, fun h => h rfl⟩
    | groups => exact ⟨fun _ h => (by cases h), fun _ => rfl⟩
  unfold placePart
  cases hon : partOnGroups q root (origin, part) with
  | false =>
    have hclause : partClause q root (origin, part) = .rows := by
      rw [partClause, hon]
      rfl
    have hmix : Mixable q root (origin, part) := by
      intro h
      rw [hon] at h
      cases h
    rw [hclause]
    constructor
    · intro h
      obtain ⟨placed, hmap, h⟩ := bind_ok h
      obtain ⟨hall, rfl⟩ := (hplaced placed).1 hmap
      rw [all_clauseOf_eq_rows, hon] at h
      cases h
      exact ⟨⟨hall, hmix⟩, rfl⟩
    · rintro ⟨⟨hall, -⟩, rfl⟩
      rw [(hplaced _).2 ⟨hall, rfl⟩]
      show (if _ then _ else _) = _
      rw [all_clauseOf_eq_rows, hon]
      rfl
  | true =>
    have hclause : partClause q root (origin, part) = .groups := by
      rw [partClause, hon]
      rfl
    rw [hclause]
    constructor
    · intro h
      obtain ⟨placed, hmap, h⟩ := bind_ok h
      obtain ⟨hall, rfl⟩ := (hplaced placed).1 hmap
      rw [all_clauseOf_eq_rows, hon] at h
      obtain ⟨_, hbeside, h⟩ := bind_ok h
      cases h
      exact ⟨⟨hall, fun _ => hpromoted.1 hbeside⟩, rfl⟩
    · rintro ⟨⟨hall, hmix⟩, rfl⟩
      rw [(hplaced _).2 ⟨hall, rfl⟩]
      show (if _ then _ else _) = _
      rw [all_clauseOf_eq_rows, hon]
      exact congrArg (· >>= fun _ => pure Clause.groups) (hpromoted.2 (hmix hon))

/-! ## Filters -/

/-- Every part of a filter is placed if it can be, and together with its clause. -/
theorem placeParts_ok_iff {f : Filter} (hlocated : Located root f.predicates)
    (placed : List (Clause × Filter)) :
    placeParts q root origin f = .ok placed ↔
      (∀ part ∈ f.conjuncts, (∀ p ∈ part.predicates, Placeable q root origin p) ∧
        Mixable q root (origin, part)) ∧
      placed = f.conjuncts.map fun part => (partClause q root (origin, part), part) := by
  refine mapM_ok_iff fun part hpart r => ?_
  have hlocated : Located root part.predicates := by
    intro p hp
    apply hlocated
    rw [← flatMap_predicates_conjuncts f]
    exact List.mem_flatMap.2 ⟨part, hpart, hp⟩
  rw [map_ok_iff]
  constructor
  · rintro ⟨c, hc, rfl⟩
    obtain ⟨hpart, rfl⟩ := (placePart_ok_iff hlocated c).1 hc
    exact ⟨hpart, rfl⟩
  · rintro ⟨hpart, rfl⟩
    exact ⟨_, (placePart_ok_iff hlocated _).2 ⟨hpart, rfl⟩, rfl⟩

theorem mapM_placeParts_ok_iff (q : Query) (origin : Clause) (fs : List Filter)
    (hlocated : ∀ f ∈ fs, Located root f.predicates) (placed : List (List (Clause × Filter))) :
    fs.mapM (placeParts q root origin) = .ok placed ↔
      (∀ f ∈ fs, ∀ part ∈ f.conjuncts, (∀ p ∈ part.predicates, Placeable q root origin p) ∧
        Mixable q root (origin, part)) ∧
      placed = fs.map fun f => f.conjuncts.map fun part =>
        (partClause q root (origin, part), part) :=
  mapM_ok_iff fun f hf => placeParts_ok_iff (hlocated f hf)

/-- The operator and the operands of a predicate fit its column. -/
def Fits (root : m.Member) (p : Predicate) : Prop :=
  (do let (_, c) ← locate root p.column
      checkOperator p c) = .ok ()

instance (p : Predicate) : Decidable (Fits root p) :=
  inferInstanceAs (Decidable (_ = _))

theorem Fits.located (h : Fits root p) : ∃ found, locate root p.column = .ok found := by
  obtain ⟨found, hfound, -⟩ := bind_ok h
  exact ⟨found, hfound⟩

/-- The parts of a query beside the clauses they are placed in. -/
def placedParts (q : Query) (root : m.Member) : List (Clause × Filter) :=
  (partsOf q).map fun part => (partClause q root part, part.2)

/-- A query with metrics is placed if each of its parts can be. -/
theorem of_ok_iff (hroot : m.require q.table = .ok root) (hagg : q.isAggregated = true)
    (hfits : ∀ p ∈ predicatesOf q.whereFilter ++ predicatesOf q.havingFilter, Fits root p)
    (placement : Placement) :
    of m q = .ok placement ↔
      (∀ part ∈ partsOf q, (∀ p ∈ part.2.predicates, Placeable q root part.1 p) ∧
        Mixable q root part) ∧
      placement = ⟨gather .rows (placedParts q root), gather .groups (placedParts q root)⟩ := by
  rw [← predicates_normal] at hfits
  have hlocated : ∀ f ∈ normal q, Located root f.predicates := fun f hf p hp =>
    (hfits p (List.mem_flatMap.2 ⟨f, hf, hp⟩)).located
  have hchecks : ((normal q).forM fun f => f.predicates.forM fun p => do
      let (_, c) ← locate root p.column
      checkOperator p c) = .ok () := by
    rw [forM_ok_iff]
    intro f hf
    rw [forM_ok_iff]
    intro p hp
    exact hfits p (List.mem_flatMap.2 ⟨f, hf, hp⟩)
  have hrows := mapM_placeParts_ok_iff q .rows (q.whereFilter.map pushNot).toList
    fun f hf => hlocated f (List.mem_append_left _ hf)
  have hgroups := mapM_placeParts_ok_iff q .groups (q.havingFilter.map pushNot).toList
    fun f hf => hlocated f (List.mem_append_right _ hf)
  have hparts : (∀ part ∈ partsOf q, (∀ p ∈ part.2.predicates, Placeable q root part.1 p) ∧
        Mixable q root part) ↔
      (∀ f ∈ (q.whereFilter.map pushNot).toList, ∀ part ∈ f.conjuncts,
        (∀ p ∈ part.predicates, Placeable q root .rows p) ∧ Mixable q root (.rows, part)) ∧
      (∀ f ∈ (q.havingFilter.map pushNot).toList, ∀ part ∈ f.conjuncts,
        (∀ p ∈ part.predicates, Placeable q root .groups p) ∧ Mixable q root (.groups, part)) := by
    rw [partsOf, List.forall_mem_append, List.forall_mem_map, List.forall_mem_map,
      List.forall_mem_flatMap, List.forall_mem_flatMap]
  have hplaced : placedParts q root =
      ((q.whereFilter.map pushNot).toList.map fun f => f.conjuncts.map fun part =>
        (partClause q root (.rows, part), part)).flatten ++
      ((q.havingFilter.map pushNot).toList.map fun f => f.conjuncts.map fun part =>
        (partClause q root (.groups, part), part)).flatten := by
    rw [placedParts, partsOf, List.map_append, List.map_map, List.map_map, List.map_flatMap,
      List.map_flatMap]
    rfl
  rw [hparts]
  unfold of
  constructor
  · intro h
    obtain ⟨root', hroot', h⟩ := bind_ok h
    rw [hroot, Except.ok.injEq] at hroot'
    subst hroot'
    obtain ⟨_, -, h⟩ := bind_ok h
    rw [if_pos hagg] at h
    obtain ⟨fromRows, hfromRows, h⟩ := bind_ok h
    obtain ⟨fromGroups, hfromGroups, h⟩ := bind_ok h
    cases h
    obtain ⟨hallRows, rfl⟩ := (hrows _).1 hfromRows
    obtain ⟨hallGroups, rfl⟩ := (hgroups _).1 hfromGroups
    refine ⟨⟨hallRows, hallGroups⟩, ?_⟩
    rw [hplaced, List.flatten_append]
  · rintro ⟨⟨hallRows, hallGroups⟩, rfl⟩
    have hfromRows := (hrows _).2 ⟨hallRows, rfl⟩
    have hfromGroups := (hgroups _).2 ⟨hallGroups, rfl⟩
    refine bind_ok_iff.2 ⟨root, hroot, bind_ok_iff.2 ⟨(), hchecks, ?_⟩⟩
    rw [if_pos hagg]
    refine bind_ok_iff.2 ⟨_, hfromRows, bind_ok_iff.2 ⟨_, hfromGroups, ?_⟩⟩
    rw [hplaced, List.flatten_append]
    rfl

/-! ## What the parts need, said of the filters -/

theorem predicates_partsOf (q : Query) :
    (partsOf q).flatMap (·.2.predicates) =
      predicatesOf q.whereFilter ++ predicatesOf q.havingFilter := by
  have hside : ∀ (c : Clause) (f : Option Filter),
      (((f.map pushNot).toList.flatMap conjuncts).map fun part => (c, part)).flatMap
        (·.2.predicates) = predicatesOf f := by
    intro c f
    rw [List.flatMap_map, predicates_flatMap_conjuncts, ← predicatesOf, predicatesOf_map_pushNot]
  rw [partsOf, List.flatMap_append, hside, hside]

/-- A predicate of the filter on rows stands in a part that is placed as one on rows. -/
theorem mem_partsOf_rows_iff {P : Predicate → Prop} :
    (∀ part ∈ partsOf q, part.1 = .rows → ∀ p ∈ part.2.predicates, P p) ↔
      ∀ p ∈ predicatesOf q.whereFilter, P p := by
  rw [← predicatesOf_map_pushNot, predicatesOf, ← predicates_flatMap_conjuncts,
    List.forall_mem_flatMap, partsOf, List.forall_mem_append, List.forall_mem_map,
    List.forall_mem_map]
  constructor
  · exact fun h part hpart => h.1 part hpart rfl
  · exact fun h => ⟨fun part hpart _ => h part hpart, fun part _ h => by cases h⟩

theorem onGroups_eq_false_iff (hmetric : onMetric root p = true) :
    onGroups q root origin p = false ↔ origin = .rows ∧ q.metricProjection? p.column = none := by
  rw [onGroups, hmetric, Bool.true_and]
  cases origin with
  | rows => simp
  | groups => simp

theorem groupable_iff : Groupable q root ↔
    ∀ part ∈ partsOf q, (∀ p ∈ part.2.predicates, Placeable q root part.1 p) ∧
      Mixable q root part := by
  constructor
  · rintro ⟨hdimensions, hmetrics, hparts⟩ part hpart
    refine ⟨fun p hp => ⟨?_, ?_⟩, ?_⟩
    · apply hdimensions
      rw [← predicates_partsOf]
      exact List.mem_flatMap.2 ⟨part, hpart, hp⟩
    · intro hmetric hoff
      obtain ⟨horigin, hunprojected⟩ := (onGroups_eq_false_iff hmetric).1 hoff
      have hrow := mem_partsOf_rows_iff.2 hmetrics part hpart horigin p hp
      exact hrow hmetric hunprojected
    · intro hon
      exact hparts part hpart (List.any_eq_true.1 hon)
  · intro h
    refine ⟨?_, ?_, ?_⟩
    · rw [← predicates_partsOf, List.forall_mem_flatMap]
      exact fun part hpart p hp => ((h part hpart).1 p hp).dimension
    · rw [← mem_partsOf_rows_iff]
      intro part hpart horigin p hp hmetric hunprojected
      exact ((h part hpart).1 p hp).metric hmetric
        ((onGroups_eq_false_iff hmetric).2 ⟨horigin, hunprojected⟩)
    · intro part hpart hon
      exact (h part hpart).2 (List.any_eq_true.2 hon)

/-! ## Where the parts are -/

theorem conjuncts_of_mem_partsOf {part : Clause × Filter} (h : part ∈ partsOf q) :
    part.2.conjuncts = [part.2] := by
  rcases List.mem_append.1 h with h | h
  · obtain ⟨f, hf, rfl⟩ := List.mem_map.1 h
    obtain ⟨g, -, hf⟩ := List.mem_flatMap.1 hf
    exact conjuncts_of_mem hf
  · obtain ⟨f, hf, rfl⟩ := List.mem_map.1 h
    obtain ⟨g, -, hf⟩ := List.mem_flatMap.1 hf
    exact conjuncts_of_mem hf

/-- The parts of the conditions in one place are the parts of the filters placed there. -/
theorem conjuncts_gather (c : Clause) :
    (gather c (placedParts q root)).toList.flatMap conjuncts =
      ((partsOf q).filter (partClause q root · == c)).map (·.2) := by
  have hparts : ((placedParts q root).filter (·.1 == c)).map (·.2) =
      ((partsOf q).filter (partClause q root · == c)).map (·.2) := by
    rw [placedParts, List.filter_map, List.map_map]
    rfl
  rw [gather, hparts]
  refine flatMap_conjuncts_all? ?_
  rw [List.forall_mem_map]
  exact fun part hpart => conjuncts_of_mem_partsOf (List.mem_filter.1 hpart).1

theorem partClause_beq (part : Clause × Filter) :
    (partClause q root part == .groups) = partOnGroups q root part ∧
      (partClause q root part == .rows) = !partOnGroups q root part := by
  unfold partClause
  cases partOnGroups q root part <;> decide

/-- The conditions of a query with metrics are placed exactly if its filters can be tested on rows
and groups. The conditions on groups are then the parts with a test of groups in them, and the
conditions on rows are the others. -/
theorem of_ok_iff_groupable (hroot : m.require q.table = .ok root) (hagg : q.isAggregated = true)
    (hfits : ∀ p ∈ predicatesOf q.whereFilter ++ predicatesOf q.havingFilter, Fits root p) :
    ((∃ placement, of m q = .ok placement) ↔ Groupable q root) ∧
    ∀ placement, of m q = .ok placement →
      placement.groups.toList.flatMap conjuncts =
        ((partsOf q).filter (partOnGroups q root)).map (·.2) ∧
      placement.rows.toList.flatMap conjuncts =
        ((partsOf q).filter (!partOnGroups q root ·)).map (·.2) := by
  have hok := of_ok_iff hroot hagg hfits
  refine ⟨?_, fun placement h => ?_⟩
  · rw [groupable_iff]
    constructor
    · rintro ⟨placement, h⟩
      exact ((hok placement).1 h).1
    · intro h
      exact ⟨_, (hok _).2 ⟨h, rfl⟩⟩
  · obtain ⟨-, rfl⟩ := (hok placement).1 h
    dsimp only
    rw [conjuncts_gather, conjuncts_gather]
    simp only [partClause_beq, and_self]

end

/-! ## An example -/

/-- The best scores of the ratings, if they are not both over a hundred and such that `p` holds,
and if they are over ten. -/
def bestScoresUnless (p : Predicate) : Query :=
  bestScores (some (.not (.and (.test (scoredOver 100)) (.test p)))) (some (.test (scoredOver 10)))

/-- The players in their model. -/
def playersTable : players.Member :=
  ⟨players.tables.head (List.cons_ne_nil _ _), List.mem_cons_self⟩

theorem fits_bestScoresUnless (p : Predicate) (h : Fits playersTable p) :
    ∀ t ∈ predicatesOf (bestScoresUnless p).whereFilter ++
      predicatesOf (bestScoresUnless p).havingFilter, Fits playersTable t := by
  have hscores : Fits playersTable (scoredOver 100) ∧ Fits playersTable (scoredOver 10) := by
    decide +kernel
  intro t ht
  replace ht : t ∈ [scoredOver 100, p, scoredOver 10] := ht
  rw [List.mem_cons, List.mem_cons, List.mem_singleton] at ht
  rcases ht with rfl | rfl | rfl
  · exact hscores.1
  · exact h
  · exact hscores.2

/-- The negation is pushed inwards before the filter is cut: a rating may stand beside the test of
the best score, because it is grouped by, and a country may not. -/
theorem of_ok_iff_groupable_bestScores :
    players.require "players" = .ok playersTable ∧
    Groupable (bestScoresUnless (rated ["A"])) playersTable ∧
    ¬ Groupable (bestScoresUnless (playsFor "NZ")) playersTable ∧
    (∃ placement, of players (bestScoresUnless (rated ["A"])) = .ok placement ∧
      placement.rows.toList.flatMap conjuncts = [] ∧
      placement.groups.toList.flatMap conjuncts =
        [.or (.not (.test (scoredOver 100))) (.not (.test (rated ["A"]))),
          .test (scoredOver 10)]) ∧
    ¬ ∃ placement, of players (bestScoresUnless (playsFor "NZ")) = .ok placement := by
  have hroot : players.require "players" = .ok playersTable := by decide +kernel
  have hrated : Groupable (bestScoresUnless (rated ["A"])) playersTable := by
    refine ⟨by decide +kernel, ?_, by decide +kernel⟩
    -- the only metric is projected
    have hprojected : ∀ p ∈ predicatesOf (bestScoresUnless (rated ["A"])).whereFilter,
        onMetric playersTable p = true →
          (bestScoresUnless (rated ["A"])).metricProjection? p.column ≠ none := by decide +kernel
    exact fun p hp hmetric hnone => absurd hnone (hprojected p hp hmetric)
  have hcountry : ¬ Groupable (bestScoresUnless (playsFor "NZ")) playersTable := by
    intro h
    have hmixed := h.parts
      (.rows, .or (.not (.test (scoredOver 100))) (.not (.test (playsFor "NZ"))))
      (by decide +kernel) ⟨scoredOver 100, by decide +kernel, by decide +kernel⟩
      (playsFor "NZ") (by decide +kernel) (by decide +kernel)
    exact absurd hmixed (by decide +kernel)
  have hfits := fits_bestScoresUnless
  obtain ⟨haccepted, hplaces⟩ := of_ok_iff_groupable hroot (q := bestScoresUnless (rated ["A"]))
    (by decide) (hfits _ (by decide +kernel))
  obtain ⟨hrefused, -⟩ := of_ok_iff_groupable hroot (q := bestScoresUnless (playsFor "NZ"))
    (by decide) (hfits _ (by decide +kernel))
  obtain ⟨placement, hplacement⟩ := haccepted.2 hrated
  obtain ⟨hgroups, hrows⟩ := hplaces placement hplacement
  refine ⟨hroot, hrated, hcountry, ⟨placement, hplacement, ?_, ?_⟩, hrefused.not.2 hcountry⟩
  · rw [hrows]
    decide +kernel
  · rw [hgroups]
    decide +kernel

end Placement

end Rollup
