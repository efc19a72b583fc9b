/-
Placing twice changes nothing. The placed conditions of a query, taken as its filters, are placed as
they are: negations stand inwards already, the parts are found again as they were put together, and
each of them stays in its clause.

A part may come back from the other filter: one with a test of groups was perhaps written among the
conditions on rows. What counts is that the clause of a part does not change when the part is taken
to come from that clause, and that the part needs nothing there which it did not need before.
-/
import Rollup.Proofs.Compile.Planning
import Rollup.Proofs.Filter.Alike
import Rollup.Proofs.Filter.Groupable
import Rollup.Proofs.Filter.Normal

namespace Rollup

namespace Filter

/-! ## Normal forms -/

/-- The parts of a filter in normal form are in normal form. -/
theorem pushNot_of_mem_conjuncts {f g : Filter} (h : g ∈ f.pushNot.conjuncts) : g.pushNot = g := by
  have hpart : ∀ f : Filter, f.pushNot = f → ∀ g ∈ f.conjuncts, g.pushNot = g := by
    intro f
    induction f with
    | and a b iha ihb =>
      intro hnormal g hg
      obtain ⟨ha, hb⟩ := Filter.and.inj hnormal
      rcases List.mem_append.1 hg with hg | hg
      · exact iha ha g hg
      · exact ihb hb g hg
    | or _ _ | not _ | test _ =>
      intro hnormal g hg
      rw [List.mem_singleton.1 hg]
      exact hnormal
  exact hpart f.pushNot (pushNot_pushNot f) g h

theorem pushNot_foldl_and {f : Filter} {fs : List Filter} (hf : f.pushNot = f)
    (hfs : ∀ g ∈ fs, g.pushNot = g) : (fs.foldl and f).pushNot = fs.foldl and f := by
  induction fs generalizing f with
  | nil => exact hf
  | cons g fs ih =>
    obtain ⟨hg, hfs⟩ := List.forall_mem_cons.1 hfs
    apply ih _ hfs
    rw [pushNot, hf, hg]

/-- Parts in normal form are put together to a filter in normal form. -/
theorem map_pushNot_all? {fs : List Filter} (h : ∀ f ∈ fs, f.pushNot = f) :
    (all? fs).map pushNot = all? fs := by
  cases fs with
  | nil => rfl
  | cons f fs =>
    obtain ⟨hf, hfs⟩ := List.forall_mem_cons.1 h
    simp only [all?, Option.map_some, pushNot_foldl_and hf hfs]

theorem all?_toList (f : Option Filter) : all? f.toList = f := by
  cases f <;> rfl

end Filter

namespace Placement

open Rollup.Filter

section

variable {m : Model} {q : Query} {root : m.Member} {origin : Clause}

/-! ## Parts that come from their clause -/

/-- On the rows a part needs no more, and on the groups it is no less about groups. -/
theorem onGroups_partClause {part : Filter} {p : Predicate} (hp : p ∈ part.predicates) :
    onGroups q root (partClause q root (origin, part)) p =
      if partOnGroups q root (origin, part) then onMetric root p else false := by
  unfold partClause
  cases hon : partOnGroups q root (origin, part) with
  | true => simp [onGroups]
  | false =>
    have hoff : onGroups q root origin p = false := by
      simpa using List.any_eq_false.1 hon p hp
    simp only [Bool.false_eq_true, if_false]
    unfold onGroups at hoff ⊢
    cases hmetric : onMetric root p with
    | false => rfl
    | true =>
      rw [hmetric, Bool.true_and, Bool.or_eq_false_iff] at hoff
      simpa using hoff.2

/-- A part that is taken to come from its clause is placed there. -/
theorem partClause_partClause (part : Filter) :
    partClause q root (partClause q root (origin, part), part) =
      partClause q root (origin, part) := by
  have hsame : partOnGroups q root (partClause q root (origin, part), part) =
      partOnGroups q root (origin, part) := by
    cases hon : partOnGroups q root (origin, part) with
    | false =>
      refine List.any_eq_false.2 fun p hp => ?_
      simp [onGroups_partClause hp, hon]
    | true =>
      obtain ⟨p, hp, hgroups⟩ := List.any_eq_true.1 hon
      refine List.any_eq_true.2 ⟨p, hp, ?_⟩
      rw [onGroups_partClause hp, hon, if_pos rfl]
      exact (Bool.and_eq_true_iff.1 hgroups).1
  unfold partClause at hsame ⊢
  rw [hsame]

/-- What is placed can be placed where it is. -/
theorem Placeable.again {part : Filter} {p : Predicate} (hp : p ∈ part.predicates)
    (h : Placeable q root origin p) :
    Placeable q root (partClause q root (origin, part)) p := by
  refine ⟨h.dimension, fun hmetric hoff => h.metric hmetric ?_⟩
  rw [onGroups_partClause hp, hmetric] at hoff
  cases hon : partOnGroups q root (origin, part) with
  | false => simpa using List.any_eq_false.1 hon p hp
  | true =>
    rw [hon, if_pos rfl] at hoff
    cases hoff

theorem Mixable.again {part : Filter} (h : Mixable q root (origin, part)) :
    Mixable q root (partClause q root (origin, part), part) := by
  intro hon p hp hoff
  have hgroups : partOnGroups q root (origin, part) = true := by
    by_contra hrows
    have hclause : partClause q root (partClause q root (origin, part), part) = _ :=
      partClause_partClause part
    unfold partClause at hclause hon
    simp only [hrows, if_false] at hclause hon
    simp [hon] at hclause
  apply h hgroups p hp
  rw [onGroups_partClause hp, hgroups, if_pos rfl] at hoff
  rw [onGroups, hoff]
  rfl

/-! ## The parts of the placed query -/

/-- The parts of a query, sorted into their clauses. -/
def sortedParts (q : Query) (root : m.Member) : List (Clause × Filter) :=
  (placedParts q root).filter (·.1 == .rows) ++ (placedParts q root).filter (·.1 == .groups)

theorem mem_sortedParts {placed : Clause × Filter} :
    placed ∈ sortedParts q root ↔ placed ∈ placedParts q root := by
  obtain ⟨c, f⟩ := placed
  simp only [sortedParts, List.mem_append, List.mem_filter]
  cases c <;> simp

theorem pushNot_of_mem_partsOf {part : Clause × Filter} (h : part ∈ partsOf q) :
    part.2.pushNot = part.2 := by
  have hside : ∀ f : Option Filter, part.2 ∈ (f.map pushNot).toList.flatMap conjuncts →
      part.2.pushNot = part.2 := by
    intro f hpart
    obtain ⟨g, hg, hpart⟩ := List.mem_flatMap.1 hpart
    obtain ⟨f', -, rfl⟩ := Option.map_eq_some_iff.1 (Option.mem_toList.1 hg)
    exact pushNot_of_mem_conjuncts hpart
  rcases List.mem_append.1 h with h | h
  · obtain ⟨f, hf, rfl⟩ := List.mem_map.1 h
    exact hside _ hf
  · obtain ⟨f, hf, rfl⟩ := List.mem_map.1 h
    exact hside _ hf

theorem map_pushNot_gather (c : Clause) :
    (gather c (placedParts q root)).map pushNot = gather c (placedParts q root) := by
  refine map_pushNot_all? ?_
  rw [List.forall_mem_map]
  intro placed hplaced
  obtain ⟨part, hpart, rfl⟩ := List.mem_map.1 (List.mem_filter.1 hplaced).1
  show part.2.pushNot = part.2
  exact pushNot_of_mem_partsOf hpart

/-- Taken as filters, the placed conditions have the sorted parts, each of which comes from its
clause. -/
theorem partsOf_filtered :
    partsOf (q.filtered (gather .rows (placedParts q root)) (gather .groups (placedParts q root))) =
      sortedParts q root := by
  have hside : ∀ c, ((gather c (placedParts q root)).toList.flatMap conjuncts).map (fun f => (c, f)) =
      (placedParts q root).filter (·.1 == c) := by
    intro c
    rw [conjuncts_gather, placedParts, List.filter_map, List.map_map]
    refine List.map_congr_left fun part hpart => ?_
    rw [← eq_of_beq (List.mem_filter.1 hpart).2]
    rfl
  unfold partsOf sortedParts
  simp only [Query.filtered]
  rw [map_pushNot_gather, map_pushNot_gather, hside, hside]

/-- The sorted parts are put together as the unsorted ones. -/
theorem gather_sortedParts (c : Clause) :
    gather c (sortedParts q root) = gather c (placedParts q root) := by
  have hnone : ∀ {c c' : Clause}, c ≠ c' →
      ((placedParts q root).filter (·.1 == c')).filter (·.1 == c) = [] := by
    intro c c' hne
    rw [List.filter_eq_nil_iff]
    intro placed hplaced hc
    exact hne ((eq_of_beq hc).symm.trans (eq_of_beq (List.mem_filter.1 hplaced).2))
  have hself : ∀ c : Clause, ((placedParts q root).filter (·.1 == c)).filter (·.1 == c) =
      (placedParts q root).filter (·.1 == c) := fun c => by rw [List.filter_filter]; simp
  unfold gather sortedParts
  cases c with
  | rows => rw [List.filter_append, hself, hnone (by decide), List.append_nil]
  | groups => rw [List.filter_append, hself, hnone (by decide), List.nil_append]

/-- A query with metrics is placed as it is placed already. -/
theorem of_filtered_aggregated {p : Placement} (hroot : m.require q.table = .ok root)
    (hagg : q.isAggregated = true)
    (hfits : ∀ t ∈ predicatesOf q.whereFilter ++ predicatesOf q.havingFilter, Fits root t)
    (hfits' : ∀ t ∈ predicatesOf p.rows ++ predicatesOf p.groups, Fits root t)
    (h : of m q = .ok p) : of m (q.filtered p.rows p.groups) = .ok p := by
  obtain ⟨hparts, rfl⟩ := (of_ok_iff hroot hagg hfits p).1 h
  set q' := q.filtered (gather .rows (placedParts q root)) (gather .groups (placedParts q root))
    with hq'
  refine (of_ok_iff (q := q') hroot hagg hfits' _).2 ⟨?_, ?_⟩
  · rw [partsOf_filtered]
    intro placed hplaced
    obtain ⟨⟨origin, part⟩, hpart, rfl⟩ := List.mem_map.1 (mem_sortedParts.1 hplaced)
    obtain ⟨hplaceable, hmixable⟩ := hparts _ hpart
    -- placing reads the projections alone, and these are the same
    refine ⟨fun t ht => ?_, fun hon t ht hoff => hmixable.again hon t ht hoff⟩
    obtain ⟨hdimension, hmetric⟩ := (hplaceable t ht).again ht
    exact ⟨hdimension, hmetric⟩
  · have hplaced : placedParts q' root = sortedParts q root := by
      rw [placedParts, partsOf_filtered]
      refine (List.map_congr_left fun placed hplaced => ?_).trans (List.map_id _)
      obtain ⟨⟨origin, part⟩, hpart, rfl⟩ := List.mem_map.1 (mem_sortedParts.1 hplaced)
      exact Prod.ext (partClause_partClause part) rfl
    rw [hplaced, gather_sortedParts, gather_sortedParts]

/-! ## Queries -/

/-- The test of a metric in a query without metrics. -/
def RawMetrics (q : Query) (root : m.Member) (t : Predicate) : Prop :=
  (do let (_, c) ← locate root t.column
      if c.isMetric then checkRawMetric q root t) = .ok ()

/-- A query without metrics is placed on the rows, if the metrics it tests do not aggregate. -/
theorem of_ok_iff_plain (hroot : m.require q.table = .ok root) (hagg : q.isAggregated = false)
    (hfits : ∀ t ∈ predicatesOf q.whereFilter ++ predicatesOf q.havingFilter, Fits root t)
    (p : Placement) :
    of m q = .ok p ↔
      (∀ t ∈ predicatesOf (all? (normal q)), RawMetrics q root t) ∧ p = ⟨all? (normal q), none⟩ := by
  rw [← predicates_normal] at hfits
  have hchecks : ((normal q).forM fun f => f.predicates.forM fun t => do
      let (_, c) ← locate root t.column
      checkOperator t c) = .ok () := by
    simp only [forM_ok_iff]
    exact fun f hf t ht => hfits t (List.mem_flatMap.2 ⟨f, hf, ht⟩)
  have hraw : ((all? (normal q)).toList.forM fun f => f.predicates.forM fun t => do
      let (_, c) ← locate root t.column
      if c.isMetric then checkRawMetric q root t) = .ok () ↔
        ∀ t ∈ predicatesOf (all? (normal q)), RawMetrics q root t := by
    simp only [forM_ok_iff, predicatesOf, List.forall_mem_flatMap]
    rfl
  have hplain : ¬ q.isAggregated = true := by simp [hagg]
  unfold of
  constructor
  · intro h
    obtain ⟨root', hroot', h⟩ := bind_ok h
    cases hroot.symm.trans hroot'
    obtain ⟨_, -, h⟩ := bind_ok h
    rw [if_neg hplain] at h
    obtain ⟨_, hmetrics, h⟩ := bind_ok h
    cases h
    exact ⟨hraw.1 hmetrics, rfl⟩
  · rintro ⟨hmetrics, rfl⟩
    refine bind_ok_iff.2 ⟨root, hroot, bind_ok_iff.2 ⟨(), hchecks, ?_⟩⟩
    rw [if_neg hplain]
    exact bind_ok_iff.2 ⟨(), hraw.2 hmetrics, rfl⟩

/-- What is put together of normal forms is put together of itself. -/
theorem all?_normal_filtered : all? (normal (q.filtered (all? (normal q)) none)) = all? (normal q) := by
  have hnormal : (all? (normal q)).map pushNot = all? (normal q) := by
    refine map_pushNot_all? fun f hf => ?_
    rw [normal, List.mem_append, Option.mem_toList, Option.mem_toList] at hf
    rcases hf with hf | hf
    · obtain ⟨g, -, rfl⟩ := Option.map_eq_some_iff.1 hf
      exact pushNot_pushNot g
    · obtain ⟨g, -, rfl⟩ := Option.map_eq_some_iff.1 hf
      exact pushNot_pushNot g
  have hsides : normal (q.filtered (all? (normal q)) none) = (all? (normal q)).toList := by
    unfold normal Query.filtered
    rw [Option.map_none, Option.toList_none, List.append_nil]
    exact congrArg Option.toList hnormal
  rw [hsides, all?_toList]

theorem of_filtered_plain {p : Placement} (hroot : m.require q.table = .ok root)
    (hagg : q.isAggregated = false)
    (hfits : ∀ t ∈ predicatesOf q.whereFilter ++ predicatesOf q.havingFilter, Fits root t)
    (hfits' : ∀ t ∈ predicatesOf p.rows ++ predicatesOf p.groups, Fits root t)
    (h : of m q = .ok p) : of m (q.filtered p.rows p.groups) = .ok p := by
  obtain ⟨hmetrics, rfl⟩ := (of_ok_iff_plain hroot hagg hfits p).1 h
  refine (of_ok_iff_plain (q := q.filtered (all? (normal q)) none) hroot hagg hfits' _).2 ⟨?_, ?_⟩
  · rw [all?_normal_filtered]
    exact hmetrics
  · rw [all?_normal_filtered]

/-- The predicates of a placed query fit their columns, before and after it is placed. -/
theorem fits_columns_of_placed {p : Placement} (h : of m q = .ok p) :
    ∃ root, m.require q.table = .ok root ∧
      (∀ t ∈ predicatesOf q.whereFilter ++ predicatesOf q.havingFilter, Fits root t) ∧
      ∀ t ∈ predicatesOf p.rows ++ predicatesOf p.groups, Fits root t := by
  obtain ⟨root, hroot, hfits, -⟩ := of_cases h
  obtain ⟨hperm, -⟩ := predicates_of_placed h
  have hnormal : ∀ t ∈ (normal q).flatMap predicates, Fits root t := by
    intro t ht
    obtain ⟨f, hf, ht⟩ := List.mem_flatMap.1 ht
    exact bind_ok_iff.2 (hfits f hf t ht)
  refine ⟨root, hroot, ?_, fun t ht => hnormal t (hperm.mem_iff.1 ht)⟩
  rwa [← predicates_normal]

/-- The placed conditions of a query are filters of a query that can be asked as well. -/
theorem build_filtered {r : Request} {p : Placement} (hquery : Query.build m r = .ok q)
    (h : of m q = .ok p) :
    Query.build m { r with filter := p.rows, having := p.groups } =
      .ok (q.filtered p.rows p.groups) := by
  obtain ⟨root, hroot, -, hfits⟩ := fits_columns_of_placed h
  unfold Query.build at hquery ⊢
  obtain ⟨root', hroot', hquery⟩ := bind_ok hquery
  obtain ⟨_, harguments, hquery⟩ := bind_ok hquery
  split at hquery
  · cases hquery
  rename_i hsome
  obtain ⟨selected, hselected, hquery⟩ := bind_ok hquery
  split at hquery
  · cases hquery
  rename_i hvalues
  obtain ⟨xs, hxs, hquery⟩ := bind_ok hquery
  obtain ⟨_, -, hquery⟩ := bind_ok hquery
  cases hquery
  -- the table that is asked is the one the query names
  rw [JoinPlan.name_of_require hroot', hroot', Except.ok.injEq] at hroot
  subst hroot
  refine bind_ok_iff.2 ⟨root', hroot', bind_ok_iff.2 ⟨_, harguments, ?_⟩⟩
  rw [if_neg hsome]
  refine bind_ok_iff.2 ⟨selected, hselected, ?_⟩
  rw [if_neg hvalues]
  have hlocated : ((p.rows.toList ++ p.groups.toList).forM fun f =>
      f.predicates.forM fun t => discard (locate root' t.column)) = .ok () := by
    simp only [forM_ok_iff]
    intro f hf t ht
    apply map_ok_iff.2
    obtain ⟨found, hfound⟩ := (hfits t (by
      rw [predicatesOf, predicatesOf, ← List.flatMap_append]
      exact List.mem_flatMap.2 ⟨f, hf, ht⟩)).located
    exact ⟨found, hfound, rfl⟩
  exact bind_ok_iff.2 ⟨xs, hxs, bind_ok_iff.2 ⟨(), hlocated, rfl⟩⟩

/-- A placed query stays as it is placed: with the placed conditions for its filters it is placed
without fail and in the same way, filter for filter; and this query can be asked. -/
theorem of_placed_again {p : Placement} (h : of m q = .ok p) :
    of m (q.filtered p.rows p.groups) = .ok p ∧
      ∀ r, Query.build m r = .ok q →
        Query.build m { r with filter := p.rows, having := p.groups } =
          .ok (q.filtered p.rows p.groups) := by
  obtain ⟨root, hroot, hfits, hfits'⟩ := fits_columns_of_placed h
  refine ⟨?_, fun r hr => build_filtered hr h⟩
  cases hagg : q.isAggregated with
  | true => exact of_filtered_aggregated hroot hagg hfits hfits' h
  | false => exact of_filtered_plain hroot hagg hfits hfits' h

/-- The `or` that tests the score is written among the conditions on rows. When it comes back from
the groups it stays there, in front of the condition that was there before. -/
theorem of_placed_again_bestScores :
    let mixed : Filter := .or (.not (.test (scoredOver 100))) (.not (.test (rated ["A", "B"])))
    let q := bestScores
      (some (.and (.not (.and (.test (scoredOver 100)) (.test (rated ["A", "B"]))))
        (.test (playsFor "NZ"))))
      (some (.test (scoredOver 10)))
    let q' := bestScores (some (.test (playsFor "NZ")))
      (some (.and mixed (.test (scoredOver 10))))
    let r : Request :=
      { table := "players", select := [⟨{ column := "rating" }, none⟩, ⟨{ column := "score" }, none⟩] }
    of players q = .ok ⟨q'.whereFilter, q'.havingFilter⟩ ∧
    Query.build players { r with filter := q.whereFilter, having := q.havingFilter } = .ok q ∧
    of players q' = .ok ⟨q'.whereFilter, q'.havingFilter⟩ ∧
    Query.build players { r with filter := q'.whereFilter, having := q'.havingFilter } = .ok q' := by
  intro mixed q q' r
  have h : of players q = .ok ⟨q'.whereFilter, q'.havingFilter⟩ := by decide +kernel
  have hquery : Query.build players { r with filter := q.whereFilter, having := q.havingFilter } =
      .ok q := by decide +kernel
  obtain ⟨hagain, hbuild⟩ := of_placed_again h
  exact ⟨h, hquery, hagain,
    hbuild { r with filter := q.whereFilter, having := q.havingFilter } hquery⟩

end

end Placement

end Rollup
