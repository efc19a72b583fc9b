/-
Placing the conditions of a query loses nothing and invents nothing. Whatever the tests turn out to
be, the placed conditions are together worth what the query's filters are worth, and every predicate
of the filters stands in exactly one of the two, in the old order.

A placed query is one of two: without metrics everything is put together on the rows; with metrics
the filters are cut into parts, every part has a clause, and the parts of each clause are put
together. The laws are those of cutting and putting together, and of the parts as a list.
-/
import Rollup.Filter.Placement
import Rollup.Proofs.Filter.Truth
import Rollup.Proofs.Outcome

namespace Rollup.Placement

open Rollup.Filter

/-! ## What a placement can be -/

/-- Every part of some filters beside the clause it is placed in. -/
def Placed {m : Model} (q : Query) (root : m.Member) (origin : Clause) (fs : List Filter)
    (parts : List (Clause × Filter)) : Prop :=
  List.Forall₂ (fun part placed => placePart q root origin part = .ok placed.1 ∧ placed.2 = part)
    (fs.flatMap conjuncts) parts

theorem Placed.map_snd {m : Model} {q : Query} {root : m.Member} {origin : Clause}
    {fs : List Filter} {parts : List (Clause × Filter)} (h : Placed q root origin fs parts) :
    parts.map (·.2) = fs.flatMap conjuncts := by
  unfold Placed at h
  generalize fs.flatMap conjuncts = whole at h
  induction h with
  | nil => rfl
  | cons hp _ ih => rw [List.map_cons, ih, hp.2]

theorem placed_of_placeParts {m : Model} {q : Query} {root : m.Member} {origin : Clause}
    {fs : List Filter} {placed : List (List (Clause × Filter))}
    (h : fs.mapM (placeParts q root origin) = .ok placed) :
    Placed q root origin fs placed.flatten := by
  unfold Placed
  replace h := mapM_ok h
  induction h with
  | nil => exact .nil
  | cons hf _ ih =>
    rw [List.flatMap_cons, List.flatten_cons]
    refine List.rel_append ((mapM_ok hf).imp fun part placed hpart => ?_) ih
    obtain ⟨c, hc, rfl⟩ := map_ok hpart
    exact ⟨hc, rfl⟩

/-- The filters of a query in negation normal form, the one on rows first. -/
def normal (q : Query) : List Filter :=
  (q.whereFilter.map pushNot).toList ++ (q.havingFilter.map pushNot).toList

/-- A placed query has filters that fit their columns. Its conditions are the parts of each clause,
or with nothing to group by, everything on the rows. -/
theorem of_cases {m : Model} {q : Query} {p : Placement} (h : of m q = .ok p) :
    ∃ root, m.require q.table = .ok root ∧
      (∀ f ∈ normal q, ∀ t ∈ f.predicates, ∃ found, locate root t.column = .ok found ∧
        checkOperator t found.2 = .ok ()) ∧
      ((q.isAggregated = true ∧ ∃ fromRows fromGroups,
          Placed q root .rows (q.whereFilter.map pushNot).toList fromRows ∧
          Placed q root .groups (q.havingFilter.map pushNot).toList fromGroups ∧
          p = ⟨gather .rows (fromRows ++ fromGroups), gather .groups (fromRows ++ fromGroups)⟩) ∨
        (q.isAggregated = false ∧ p = ⟨all? (normal q), none⟩)) := by
  unfold of at h
  obtain ⟨root, hroot, h⟩ := bind_ok h
  obtain ⟨⟨⟩, hcheck, h⟩ := bind_ok h
  refine ⟨root, hroot, fun f hf t ht => ?_, ?_⟩
  · have := forM_ok (forM_ok hcheck f hf) t ht
    exact bind_ok this
  · split at h
    · rename_i hagg
      obtain ⟨fromRows, hrows, h⟩ := bind_ok h
      obtain ⟨fromGroups, hgroups, h⟩ := bind_ok h
      cases h
      -- the parts of both filters are put into clauses together
      rw [List.flatten_append]
      exact .inl ⟨hagg, _, _, placed_of_placeParts hrows, placed_of_placeParts hgroups, rfl⟩
    · rename_i hagg
      obtain ⟨-, -, h⟩ := bind_ok h
      cases h
      exact .inr ⟨by simpa using hagg, rfl⟩

/-! ## Parts and their clauses -/

section Parts

variable (v : Predicate → Truth) (parts : List (Clause × Filter))

/-- The parts of the two clauses are together worth all parts. -/
theorem valueAll_clauses :
    (valueAll v ((parts.filter (·.1 == .rows)).map (·.2))).and
        (valueAll v ((parts.filter (·.1 == .groups)).map (·.2))) =
      valueAll v (parts.map (·.2)) := by
  induction parts with
  | nil => rfl
  | cons part parts ih =>
    obtain ⟨c, f⟩ := part
    rw [List.map_cons, valueAll_cons, ← ih]
    cases c with
    | rows => exact Truth.and_assoc _ _ _
    | groups => exact Truth.and_left_comm _ _ _

theorem value_gather :
    (valueOf v (gather .rows parts)).and (valueOf v (gather .groups parts)) =
      valueAll v (parts.map (·.2)) := by
  unfold gather
  rw [valueOf_all?, valueOf_all?, valueAll_clauses]

theorem predicatesOf_gather (c : Clause) :
    predicatesOf (gather c parts) =
      ((parts.filter (·.1 == c)).map (·.2)).flatMap predicates :=
  predicatesOf_all? _

theorem mem_predicatesOf_gather {c : Clause} {t : Predicate} :
    t ∈ predicatesOf (gather c parts) ↔ ∃ part, (c, part) ∈ parts ∧ t ∈ part.predicates := by
  simp only [predicatesOf_gather, List.mem_flatMap, List.mem_map, List.mem_filter, beq_iff_eq]
  constructor
  · rintro ⟨_, ⟨⟨_, part⟩, ⟨hmem, rfl⟩, rfl⟩, ht⟩
    exact ⟨part, hmem, ht⟩
  · rintro ⟨part, hmem, ht⟩
    exact ⟨part, ⟨(c, part), ⟨hmem, rfl⟩, rfl⟩, ht⟩

/-- The predicates of one clause stand in the order of all parts. -/
theorem predicatesOf_gather_sublist (c : Clause) :
    (predicatesOf (gather c parts)).Sublist ((parts.map (·.2)).flatMap predicates) := by
  rw [predicatesOf_gather]
  exact ((List.filter_sublist).map _).flatMap _

theorem filter_rows_append_groups :
    ((parts.filter (·.1 == .rows)) ++ (parts.filter (·.1 == .groups))).Perm parts := by
  have hne : (parts.filter (·.1 == .groups)) = parts.filter (!·.1 == .rows) := by
    refine List.filter_congr fun part _ => ?_
    obtain ⟨c, f⟩ := part
    cases c <;> rfl
  rw [hne]
  exact List.filter_append_perm _ _

/-- Every predicate of the parts stands in exactly one clause. -/
theorem predicatesOf_gather_perm :
    (predicatesOf (gather .rows parts) ++ predicatesOf (gather .groups parts)).Perm
      ((parts.map (·.2)).flatMap predicates) := by
  rw [predicatesOf_gather, predicatesOf_gather, ← List.flatMap_append, ← List.map_append]
  exact ((filter_rows_append_groups parts).map _).flatMap_right _

end Parts

/-! ## Nothing is lost and nothing invented -/

theorem valueAll_normal (v : Predicate → Truth) (q : Query) :
    valueAll v (normal q) = (valueOf v q.whereFilter).and (valueOf v q.havingFilter) := by
  rw [normal, valueAll_append, ← valueOf, ← valueOf, valueOf_map_pushNot, valueOf_map_pushNot]

theorem predicates_normal (q : Query) :
    (normal q).flatMap predicates = predicatesOf q.whereFilter ++ predicatesOf q.havingFilter := by
  rw [normal, List.flatMap_append, ← predicatesOf, ← predicatesOf, predicatesOf_map_pushNot,
    predicatesOf_map_pushNot]

theorem valueAll_flatMap_conjuncts (v : Predicate → Truth) (fs : List Filter) :
    valueAll v (fs.flatMap conjuncts) = valueAll v fs := by
  induction fs with
  | nil => rfl
  | cons f fs ih => rw [List.flatMap_cons, valueAll_append, valueAll_conjuncts, ih, valueAll_cons]

theorem predicates_flatMap_conjuncts (fs : List Filter) :
    (fs.flatMap conjuncts).flatMap predicates = fs.flatMap predicates := by
  rw [List.flatMap_assoc]
  exact List.flatMap_congr fun f _ => flatMap_predicates_conjuncts f

/-- The placed conditions come from the parts of the filters, by `of_cases`; what follows is that
the parts are worth the filters and hold their predicates. -/
theorem value_of_placed {m : Model} {q : Query} {p : Placement} (h : of m q = .ok p)
    (v : Predicate → Truth) :
    (valueOf v p.rows).and (valueOf v p.groups) =
      (valueOf v q.whereFilter).and (valueOf v q.havingFilter) := by
  rw [← valueAll_normal]
  obtain ⟨root, -, -, ⟨-, fromRows, fromGroups, hrows, hgroups, rfl⟩ | ⟨-, rfl⟩⟩ := of_cases h
  · rw [value_gather, List.map_append, hrows.map_snd, hgroups.map_snd, ← List.flatMap_append,
      ← normal, valueAll_flatMap_conjuncts]
  · rw [valueOf_all?, valueOf_none, Truth.and_yes]

theorem predicates_of_placed {m : Model} {q : Query} {p : Placement} (h : of m q = .ok p) :
    (predicatesOf p.rows ++ predicatesOf p.groups).Perm ((normal q).flatMap predicates) ∧
    (predicatesOf p.rows).Sublist ((normal q).flatMap predicates) ∧
    (predicatesOf p.groups).Sublist ((normal q).flatMap predicates) := by
  obtain ⟨root, -, -, ⟨-, fromRows, fromGroups, hrows, hgroups, rfl⟩ | ⟨-, rfl⟩⟩ := of_cases h
  · have hparts : ((fromRows ++ fromGroups).map (·.2)).flatMap predicates =
        (normal q).flatMap predicates := by
      rw [List.map_append, hrows.map_snd, hgroups.map_snd, ← List.flatMap_append, ← normal,
        predicates_flatMap_conjuncts]
    rw [← hparts]
    exact ⟨predicatesOf_gather_perm _, predicatesOf_gather_sublist _ _,
      predicatesOf_gather_sublist _ _⟩
  · rw [predicatesOf_all?, predicatesOf_none, List.append_nil]
    exact ⟨.refl _, .refl _, List.nil_sublist _⟩

/-- However the tests turn out, the placed conditions are together worth what the filters of the
query are worth; and they hold the predicates of these filters, each once and on either side in the
order they had. -/
theorem of_keeps_value_and_predicates {m : Model} {q : Query} {p : Placement}
    (h : of m q = .ok p) :
    (∀ v : Predicate → Truth, (valueOf v p.rows).and (valueOf v p.groups) =
      (valueOf v q.whereFilter).and (valueOf v q.havingFilter)) ∧
    (predicatesOf p.rows ++ predicatesOf p.groups).Perm
      (predicatesOf q.whereFilter ++ predicatesOf q.havingFilter) ∧
    (predicatesOf p.rows).Sublist (predicatesOf q.whereFilter ++ predicatesOf q.havingFilter) ∧
    (predicatesOf p.groups).Sublist
      (predicatesOf q.whereFilter ++ predicatesOf q.havingFilter) := by
  rw [← predicates_normal]
  exact ⟨value_of_placed h, predicates_of_placed h⟩

/-! ## An example -/

/-- Players and the countries they play for. -/
def players : Model where
  tables := [
    { name := "players"
      source := .physical none "players"
      columns := [
        { name := "score", formula := "\x7b\x7b$score\x7d\x7d", kind := .metric (some .max) [] },
        { name := "rating", formula := "\x7b\x7b$rating\x7d\x7d", kind := .dimension }]
      joins := [
        { name := "country", table := "countries"
          condition := "\x7b\x7b$country_id\x7d\x7d = \x7b\x7bcountry.$id\x7d\x7d" }] },
    { name := "countries"
      source := .physical none "countries"
      columns := [
        { name := "name", formula := "\x7b\x7b$name\x7d\x7d", kind := .dimension }] }]

/-- The best score of each rating, for the players that meet some conditions. -/
def bestScores (rows groups : Option Filter) : Query where
  table := "players"
  arguments := .empty
  projections := [
    ⟨{ column := "rating" }, .dimension, "rating"⟩, ⟨{ column := "score" }, .metric, "score"⟩]
  whereFilter := rows
  havingFilter := groups
  sorting := []
  pagination := none
  bypassCache := false

/-- The rating is one of some. -/
def rated (ratings : List String) : Predicate :=
  ⟨{ column := "rating" }, .oneOf false .sensitive, ratings.map .text⟩

/-- The score is above some number. -/
def scoredOver (n : Int64) : Predicate :=
  ⟨{ column := "score" }, .compare .gt, [.int n]⟩

/-- The country has a name. -/
def playsFor (name : String) : Predicate :=
  ⟨{ joins := ["country"], column := "name" }, .compare .eq, [.text name]⟩

/-- A negated `or` is cut, and the `or` that is left under it goes to the groups as a whole. -/
theorem of_keeps_value_and_predicates_bestScores :
    let q := bestScores (some (.and
      (.not (.or (.test (rated ["A"])) (.and (.test (scoredOver 100)) (.test (rated ["A", "B"])))))
      (.test (playsFor "NZ")))) (some (.test (scoredOver 10)))
    let rows : Filter := .and (.not (.test (rated ["A"]))) (.test (playsFor "NZ"))
    let groups : Filter :=
      .and (.or (.not (.test (scoredOver 100))) (.not (.test (rated ["A", "B"]))))
        (.test (scoredOver 10))
    of players q = .ok ⟨some rows, some groups⟩ ∧
    (∀ v, (rows.value v).and (groups.value v) =
      (valueOf v q.whereFilter).and (valueOf v q.havingFilter)) ∧
    (rows.predicates ++ groups.predicates).Perm
      (predicatesOf q.whereFilter ++ predicatesOf q.havingFilter) := by
  intro q rows groups
  have h : of players q = .ok ⟨some rows, some groups⟩ := by decide +kernel
  obtain ⟨hvalue, hperm, -⟩ := of_keeps_value_and_predicates h
  exact ⟨h, by simpa using hvalue, by simpa using hperm⟩

end Rollup.Placement
