/-
When join planning comes to an end. The paths that are needed consist of joins of the model, so they
are infinitely many only if they get ever longer; that takes a circle of joins, and a condition
that reads deeper than to its own join. A model with both is accepted, and planning it never ends.
-/
import Rollup.Model.Check
import Rollup.Proofs.Compile.Closing
import Mathlib.Data.Set.Finite.Lattice

namespace Rollup

namespace JoinPlan

section

variable {m : Model} {mode : Mode} {scope : Scope m} {required : List JoinPath}

theorem of?_eq_none_iff : of? mode scope required = none ↔
    {p | Needed mode scope required p}.Infinite ∧
      ∀ p, Needed mode scope required p → ∃ node, Resolves mode scope p node := by
  rw [of?, Option.map_eq_none_iff, close_eq_none_iff]

/-! ## Paths of the model -/

/-- The names of all joins. -/
def joinNames (m : Model) : List String :=
  m.tables.flatMap fun t => t.joins.map (·.name)

theorem mem_joinNames {t : m.Member} {name : String} {j : Join} (h : t.1.join? name = some j) :
    name ∈ joinNames m :=
  List.mem_flatMap.2 ⟨t.1, t.2, List.mem_map.2 ⟨j, List.mem_of_find?_eq_some h, name_of_join? h⟩⟩

theorem positions_ok {t u : m.Member} {p : JoinPath} {order : List Nat}
    (h : positions t p = .ok (order, u)) : ∀ name ∈ p, name ∈ joinNames m := by
  induction p generalizing t order with
  | nil => exact fun name hname => (List.not_mem_nil hname).elim
  | cons first rest ih =>
    obtain ⟨j, v, order', hj, -, hrest, rfl⟩ := positions_cons h
    intro name hname
    rcases List.mem_cons.1 hname with rfl | hname
    · exact mem_joinNames hj
    · exact ih hrest name hname

/-- A path that has a join consists of joins of the model. -/
theorem Resolves.mem_joinNames {p : JoinPath} {node : JoinNode} (h : Resolves mode scope p node) :
    ∀ name ∈ p, name ∈ joinNames m := by
  obtain ⟨last, hlast, hnode⟩ := h
  obtain ⟨order, t, j, _, _, hpositions, hj, -⟩ := nodeAt_eq hnode
  intro name hname
  rw [← List.dropLast_append_getLast? last hlast] at hname
  rcases List.mem_append.1 hname with hname | hname
  · exact positions_ok hpositions name hname
  · rw [List.mem_singleton.1 hname]
    exact JoinPlan.mem_joinNames hj

theorem finite_paths (names : List String) (n : Nat) :
    {p : JoinPath | p.length ≤ n ∧ ∀ name ∈ p, name ∈ names}.Finite := by
  refine ((List.finite_length_le {name // name ∈ names} n).image (List.map Subtype.val)).subset ?_
  rintro p ⟨hlength, hnames⟩
  -- a path is a list over the names, which are finitely many
  lift p to List {name // name ∈ names} using hnames
  exact ⟨p, by rwa [List.length_map] at hlength, rfl⟩

/-- Where all needed paths have their joins, they are finitely many if they are not ever longer. -/
theorem finite_needed_iff
    (hresolves : ∀ p, Needed mode scope required p → ∃ node, Resolves mode scope p node) :
    {p | Needed mode scope required p}.Finite ↔
      ∃ n, ∀ p, Needed mode scope required p → p.length ≤ n := by
  constructor
  · intro hfin
    obtain ⟨n, hn⟩ := (hfin.image List.length).bddAbove
    exact ⟨n, fun p hp => hn ⟨p, hp, rfl⟩⟩
  · rintro ⟨n, hn⟩
    refine (finite_paths (joinNames m) n).subset fun p hp => ⟨hn p hp, ?_⟩
    obtain ⟨node, hnode⟩ := hresolves p hp
    exact hnode.mem_joinNames

theorem of?_eq_none_iff_unbounded : of? mode scope required = none ↔
    (∀ n, ∃ p, Needed mode scope required p ∧ n < p.length) ∧
      ∀ p, Needed mode scope required p → ∃ node, Resolves mode scope p node := by
  rw [of?_eq_none_iff]
  refine and_congr_left fun hresolves => ?_
  rw [← Set.not_finite, finite_needed_iff hresolves]
  push Not
  rfl

/-- Planning ends if and only if the needed paths do not get ever longer, or one of them has no
join. -/
theorem of?_isSome_iff : (of? mode scope required).isSome ↔
    (∃ n, ∀ p, Needed mode scope required p → p.length ≤ n) ∨
      ∃ p, Needed mode scope required p ∧ ∀ node, ¬ Resolves mode scope p node := by
  rw [← Option.ne_none_iff_isSome, ne_eq, of?_eq_none_iff_unbounded, not_and_or]
  push Not
  rfl

/-! ## Models whose planning always ends -/

/-- Planning ends where no condition reads deeper than to its own join. -/
theorem of?_isSome_of_shallow
    (h : ∀ p node, Resolves mode scope p node → ∀ q ∈ node.needs, q.length ≤ p.length) :
    (of? mode scope required).isSome := by
  rw [← Option.ne_none_iff_isSome]
  intro hnone
  obtain ⟨n, hn⟩ := ((List.finite_toSet required).image List.length).bddAbove
  obtain ⟨p, hp, hlong⟩ := (of?_eq_none_iff_unbounded.1 hnone).1 n
  -- no needed path is longer than the longest required one
  have hbound : p.length ≤ n := by
    induction hp with
    | required hmem _ => exact hn ⟨_, hmem, rfl⟩
    | start _ hq ih =>
      have := JoinPath.length_le_of_mem_starts hq
      rw [List.length_dropLast] at this
      omega
    | need _ hnode hq ih =>
      have := h _ _ hnode _ hq
      omega
  omega

theorem name_of_require {name : String} {t : m.Member} (h : m.require name = .ok t) :
    t.1.name = name := by
  unfold Model.require at h
  split at h
  · rename_i u hu
    cases h
    unfold Model.member? at hu
    split at hu
    · rename_i u hfound
      cases hu
      have := List.find?_some (hfound : m.tables.find? (·.name == name) = some u)
      exact eq_of_beq this
    · cases hu
  · cases h

/-- Each join of a path leads to a table of a lower rank, so the path is no longer than the ranks
that are left. -/
theorem length_le_of_ranked {rank : String → Nat}
    (hrank : ∀ t ∈ m.tables, ∀ j ∈ t.joins, rank j.table < rank t.name) {t u : m.Member}
    {p : JoinPath} {order : List Nat} (h : positions t p = .ok (order, u)) :
    p.length + rank u.1.name ≤ rank t.1.name := by
  induction p generalizing t order with
  | nil =>
    cases h
    rw [List.length_nil, Nat.zero_add]
  | cons first rest ih =>
    obtain ⟨j, v, order', hj, hv, hrest, rfl⟩ := positions_cons h
    have hlower := hrank t.1 t.2 j (List.mem_of_find?_eq_some hj)
    have := ih hrest
    rw [name_of_require hv] at this
    rw [List.length_cons]
    omega

/-- Planning ends in a model without circles of joins. -/
theorem of?_isSome_of_ranked {rank : String → Nat}
    (hrank : ∀ t ∈ m.tables, ∀ j ∈ t.joins, rank j.table < rank t.name) :
    (of? mode scope required).isSome := by
  rw [← Option.ne_none_iff_isSome]
  intro hnone
  obtain ⟨hlong, hresolves⟩ := of?_eq_none_iff_unbounded.1 hnone
  obtain ⟨p, hp, hlong⟩ := hlong (rank scope.root.1.name)
  obtain ⟨node, last, hlast, hnode⟩ := hresolves p hp
  obtain ⟨order, t, j, _, _, hpositions, hj, -⟩ := nodeAt_eq hnode
  -- the ranks go down along the path, and once more with its last join
  have hlower := hrank t.1 t.2 j (List.mem_of_find?_eq_some hj)
  have := length_le_of_ranked hrank hpositions
  rw [List.length_dropLast] at this
  omega

end

/-! ## A join whose condition reads ever deeper -/

/-- People and their parents. A parent is joined to the parent of its own parent. -/
def person : Table where
  name := "people"
  source := .physical none "people"
  columns := [{ name := "name", formula := "\x7b\x7b$name\x7d\x7d", kind := .dimension }]
  joins := [
    { name := "parent", table := "people"
      condition := "\x7b\x7b$parent_id\x7d\x7d = \x7b\x7bparent.parent.$id\x7d\x7d" }]

/-- The model of the people. -/
def family : Model where
  tables := [person]

/-- The people in their model. -/
def people : family.Member := ⟨person, List.mem_singleton_self _⟩

/-- So many parents up. -/
def ancestor (n : Nat) : JoinPath := List.replicate n "parent"

section

variable (mode : Mode) (scope : Scope family)

theorem walk_ancestor (reference : String) (path : JoinPath) (n : Nat) :
    walk reference people path (ancestor n) = .ok (people, path ++ ancestor n) := by
  induction n generalizing path with
  | zero => rw [ancestor, List.replicate_zero, List.append_nil]; rfl
  | succ n ih =>
    have hstep : walk reference people path (ancestor (n + 1)) =
        walk reference people (path ++ ["parent"]) (ancestor n) := rfl
    rw [hstep, ih, List.append_assoc]
    rfl

theorem positions_ancestor (n : Nat) :
    positions people (ancestor n) = .ok (List.replicate n 0, people) := by
  induction n with
  | zero => rfl
  | succ n ih =>
    have hstep : positions people (ancestor (n + 1)) =
        positions people (ancestor n) >>= fun r => .ok (0 :: r.1, r.2) := rfl
    rw [hstep, ih]
    rfl

theorem parse_condition :
    Template.parse "\x7b\x7b$parent_id\x7d\x7d = \x7b\x7bparent.parent.$id\x7d\x7d" =
      .ok [.reference [] (.physical "parent_id"), .literal " = ",
        .reference ["parent", "parent"] (.physical "id")] := by
  decide +kernel

theorem ancestor_succ (n : Nat) : ancestor n ++ ["parent"] = ancestor (n + 1) :=
  List.replicate_succ'.symm

theorem eq_ancestor_of_mem_starts {n : Nat} {q : JoinPath} (h : q ∈ (ancestor n).starts) :
    ∃ k, q = ancestor k := by
  induction n generalizing q with
  | zero => cases h
  | succ n ih =>
    rcases List.mem_cons.1 h with rfl | h
    · exact ⟨1, rfl⟩
    · obtain ⟨r, hr, rfl⟩ := List.mem_map.1 h
      obtain ⟨k, rfl⟩ := ih hr
      exact ⟨k + 1, rfl⟩

/-- Up from any ancestor the condition reads through the next two. -/
theorem resolveTemplate_ancestor (hroot : scope.root = people) (n : Nat) :
    ∃ f, resolveTemplate mode scope (ancestor n)
        "\x7b\x7b$parent_id\x7d\x7d = \x7b\x7bparent.parent.$id\x7d\x7d" "join:parent" = .ok f ∧
      f.joins = (ancestor (n + 2)).record ((ancestor n).record (JoinPath.record []
        ((ancestor n).record []))) := by
  -- the left side of the condition is read from the ancestor itself, the right side two further up
  have hread : ∀ t : Table, readTemplate t "join:parent" _ = _ := fun t =>
    readTemplate_eq parse_condition
  simp only [resolveTemplate, hroot, walk_ancestor, List.nil_append, bind, Except.bind, hread]
  rw [Expansion.expand, Expansion.run_text rfl rfl, Expansion.run_text rfl rfl,
    Expansion.run_text rfl rfl, Expansion.run_end rfl rfl rfl]
  refine ⟨_, rfl, ?_⟩
  rw [← ancestor_succ, ← ancestor_succ]
  rfl

theorem nodeAt_ancestor (hroot : scope.root = people) (n : Nat) :
    ∃ node, nodeAt mode scope (ancestor n) "parent" = .ok node ∧ ancestor (n + 2) ∈ node.needs ∧
      ∀ q ∈ node.needs, ∃ k, q = ancestor k := by
  obtain ⟨f, hf, hjoins⟩ := resolveTemplate_ancestor mode scope hroot n
  have hjoin : people.1.join? "parent" = some
      { name := "parent", table := "people"
        condition := "\x7b\x7b$parent_id\x7d\x7d = \x7b\x7bparent.parent.$id\x7d\x7d" } := rfl
  have hmember : family.require "people" = .ok people := rfl
  have hkind : (JoinKind.left == JoinKind.cross) = false := rfl
  have hlabel : "join:" ++ "parent" = "join:parent" := by decide
  simp only [nodeAt, hroot, positions_ancestor, bind, Except.bind, hjoin, hmember, hkind,
    Bool.false_eq_true, if_false, hlabel, hf, Except.map]
  refine ⟨_, rfl, JoinPath.mem_union.2 (.inr (List.mem_filter.2 ⟨?_, ?_⟩)), fun q hq => ?_⟩
  · rw [Option.map_some, Option.getD_some, hjoins, JoinPath.mem_record]
    exact .inr (JoinPath.self_mem_starts (List.cons_ne_nil _ _))
  · have hne : ancestor (n + 2) ≠ ancestor (n + 1) := fun h => by
      have := congrArg List.length h
      simp [ancestor] at this
    rw [ancestor_succ, bne_iff_ne.2 hne]
    rfl
  · rcases JoinPath.mem_union.1 hq with hq | hq
    · split at hq
      · cases hq
      · exact ⟨n, List.mem_singleton.1 hq⟩
    · have hq := (List.mem_filter.1 hq).1
      rw [Option.map_some, Option.getD_some, hjoins] at hq
      simp only [JoinPath.mem_record, List.not_mem_nil, false_or] at hq
      rcases hq with ((hq | hq) | hq) | hq
      · exact eq_ancestor_of_mem_starts hq
      · cases hq
      · exact eq_ancestor_of_mem_starts hq
      · exact eq_ancestor_of_mem_starts hq

theorem resolves_ancestor (hroot : scope.root = people) (n : Nat) :
    ∃ node, Resolves mode scope (ancestor (n + 1)) node ∧ ancestor (n + 2) ∈ node.needs ∧
      ∀ q ∈ node.needs, ∃ k, q = ancestor k := by
  obtain ⟨node, hnode, hneeds⟩ := nodeAt_ancestor mode scope hroot n
  refine ⟨node, ⟨"parent", ?_, ?_⟩, hneeds⟩
  · rw [← ancestor_succ]
    exact List.getLast?_concat
  · rw [← ancestor_succ, List.dropLast_concat]
    exact hnode

theorem needed_ancestor (hroot : scope.root = people) (n : Nat) :
    Needed mode scope [["parent"]] (ancestor (n + 1)) := by
  induction n with
  | zero => exact .required (List.mem_singleton_self _) (List.cons_ne_nil _ _)
  | succ n ih =>
    obtain ⟨node, hnode, hnext, -⟩ := resolves_ancestor mode scope hroot n
    exact .need ih hnode hnext

theorem Needed.eq_ancestor (hroot : scope.root = people) {p : JoinPath}
    (h : Needed mode scope [["parent"]] p) : ∃ n, p = ancestor (n + 1) := by
  have hsucc : ∀ {p : JoinPath}, p ≠ [] → (∃ k, p = ancestor k) → ∃ n, p = ancestor (n + 1) := by
    rintro p hne ⟨k, rfl⟩
    cases k with
    | zero => exact (hne rfl).elim
    | succ k => exact ⟨k, rfl⟩
  induction h with
  | required h hne => exact ⟨0, List.mem_singleton.1 h⟩
  | start hp hq ih =>
    obtain ⟨n, rfl⟩ := ih
    rw [← ancestor_succ, List.dropLast_concat] at hq
    exact hsucc (JoinPath.ne_nil_of_mem_starts hq) (eq_ancestor_of_mem_starts hq)
  | need hp hnode hq ih =>
    obtain ⟨n, rfl⟩ := ih
    obtain ⟨node, hnode', -, hneeds⟩ := resolves_ancestor mode scope hroot n
    have hne := (Needed.need hp hnode hq).ne_nil
    rw [hnode.unique hnode'] at hq
    exact hsucc hne (hneeds _ hq)

end

/-- The model is accepted and the join is one of its own, but planning it goes on for ever. -/
theorem of?_family : Model.build [person] = .ok family ∧ tableAt people ["parent"] = .ok people ∧
    of? ⟨.sqlite, false⟩ (Scope.of people .empty) [["parent"]] = none := by
  refine ⟨by decide +kernel, rfl, of?_eq_none_iff.2 ⟨?_, fun p hp => ?_⟩⟩
  · refine Set.infinite_of_injective_forall_mem (f := fun n => ancestor (n + 1)) ?_
      (needed_ancestor _ _ rfl)
    intro n k h
    have := congrArg List.length h
    simpa [ancestor] using this
  · obtain ⟨n, rfl⟩ := hp.eq_ancestor _ _ rfl
    obtain ⟨node, hnode, -⟩ := resolves_ancestor ⟨.sqlite, false⟩ (Scope.of people .empty) rfl n
    exact ⟨node, hnode⟩

end JoinPlan

end Rollup
