/-
The order of the joins of a statement. Each join is placed after those it needs, and of all that
could come next it is the one declared first. There is only one such order of the closure of the
required paths, whatever order the nodes are looked through in; and where planning fails for a
circle there is no order at all in which the joins come after what they need.
-/
import Rollup.Proofs.Compile.Dependencies
import Rollup.Proofs.Expansion.Trial
import Mathlib.Data.List.Lex
import Mathlib.Data.List.Sort
import Mathlib.Data.String.Basic

namespace Rollup

open Expansion

namespace JoinPlan

section

variable {m : Model} (mode : Mode) (scope : Scope m)

/-! ## Orders -/

/-- All that a join needs comes before it. -/
def Free (before : List JoinPath) (p : JoinPath) : Prop :=
  ∀ q, Needs mode scope p q → q ∈ before

/-- Every path of a list comes after what it needs. -/
inductive Legal : (before : List JoinPath) → List JoinPath → Prop
  | nil {before} : Legal before []
  | cons {before p rest} (hfree : Free mode scope before p) (hrest : Legal (p :: before) rest) :
    Legal before (p :: rest)

/-- Every path of a list comes after what it needs, and before all that are declared later and could
come in its place. -/
inductive Greedy : (before : List JoinPath) → List JoinPath → Prop
  | nil {before} : Greedy before []
  | cons {before p rest} (hfree : Free mode scope before p)
    (hfirst : ∀ q ∈ rest, Free mode scope before q →
      declaration scope.root p < declaration scope.root q)
    (hrest : Greedy (p :: before) rest) : Greedy before (p :: rest)

/-- An order in which the closure of the required paths can be joined. -/
structure Arranges (required order : List JoinPath) : Prop where
  nodup : order.Nodup
  mem : ∀ p, p ∈ order ↔ Closure mode scope required p
  legal : Legal mode scope [] order

variable {mode scope}

theorem Greedy.legal {before order : List JoinPath} (h : Greedy mode scope before order) :
    Legal mode scope before order := by
  induction h with
  | nil => exact .nil
  | cons hfree _ _ ih => exact .cons hfree ih

/-- At each place only one path can come next. -/
theorem Greedy.unique {before order order' : List JoinPath} (h : Greedy mode scope before order)
    (h' : Greedy mode scope before order') (hperm : order.Perm order') : order = order' := by
  induction h generalizing order' with
  | nil => exact (List.nil_perm.1 hperm).symm
  | @cons before p rest hfree hfirst _ ih =>
    cases h' with
    | nil => exact absurd hperm (List.not_perm_nil_cons _ _ ·.symm)
    | @cons _ q rest' hfree' hfirst' hrest' =>
      have hsame : p = q := by
        by_contra hne
        have hq : q ∈ rest := (List.mem_cons.1 (hperm.symm.subset List.mem_cons_self)).resolve_left
          fun h => hne h.symm
        have hp : p ∈ rest' := (List.mem_cons.1 (hperm.subset List.mem_cons_self)).resolve_left hne
        exact lt_asymm (hfirst q hq hfree') (hfirst' p hp hfree)
      subst hsame
      rw [ih hrest' hperm.cons_inv]

/-- Paths that all need one another never come, in any order. -/
theorem Legal.not_mem_of_stuck {stuck : List JoinPath}
    (hstuck : ∀ p ∈ stuck, ∃ q ∈ stuck, Needs mode scope p q) {before order : List JoinPath}
    (h : Legal mode scope before order) (hbefore : ∀ p ∈ stuck, p ∉ before) :
    ∀ p ∈ stuck, p ∉ order := by
  induction h with
  | nil => exact fun p _ => List.not_mem_nil
  | @cons before p rest hfree _ ih =>
    -- the first of them would need one that is not there
    have hp : p ∉ stuck := by
      intro hp
      obtain ⟨q, hq, hneeds⟩ := hstuck p hp
      exact hbefore q hq (hfree q hneeds)
    have hother : ∀ q ∈ stuck, q ≠ p := fun q hq heq => hp (heq ▸ hq)
    intro q hq hmem
    rcases List.mem_cons.1 hmem with heq | hmem
    · exact hother q hq heq
    · refine ih (fun r hr hmem => ?_) q hq hmem
      rcases List.mem_cons.1 hmem with heq | hmem
      · exact hother r hr heq
      · exact hbefore r hr hmem

/-! ## One step -/

theorem mem_ready {done : List JoinPath} {nodes : List JoinNode} (hnodes : Nodes mode scope nodes)
    {n : JoinNode} : n ∈ ready done nodes ↔ n ∈ nodes ∧ Free mode scope done n.path := by
  rw [ready, List.mem_filter]
  refine and_congr_right fun hn => ?_
  obtain ⟨-, -, hneeds, -⟩ := (hnodes.resolves n hn).spec
  rw [List.all_eq_true]
  refine forall_congr' fun q => ?_
  rw [hneeds, List.contains_iff_mem]

theorem first?_eq_none {nodes : List JoinNode} : first? nodes = none ↔ nodes = [] := by
  cases nodes with
  | nil => exact iff_of_true rfl rfl
  | cons n rest =>
    refine iff_of_false ?_ (List.cons_ne_nil _ _)
    rw [first?]
    split <;> exact Option.some_ne_none _

theorem first?_eq_some {nodes : List JoinNode} {n : JoinNode} (h : first? nodes = some n) :
    n ∈ nodes ∧ ∀ k ∈ nodes, n.order ≤ k.order := by
  induction nodes generalizing n with
  | nil => cases h
  | cons first rest ih =>
    rw [first?] at h
    split at h
    · rename_i hrest
      cases h
      rw [first?_eq_none.1 hrest]
      exact ⟨List.mem_cons_self, fun k hk => by rw [List.mem_singleton.1 hk]⟩
    · rename_i k hrest
      obtain ⟨hk, hleast⟩ := ih hrest
      cases h
      split
      · rename_i hlt
        refine ⟨List.mem_cons_of_mem _ hk, fun l hl => ?_⟩
        rcases List.mem_cons.1 hl with rfl | hl
        · exact le_of_lt hlt
        · exact hleast l hl
      · rename_i hle
        refine ⟨List.mem_cons_self, fun l hl => ?_⟩
        rcases List.mem_cons.1 hl with rfl | hl
        · exact le_rfl
        · exact (not_lt.1 hle).trans (hleast l hl)

/-- Nodes of two paths have two orders, so one is before the other. -/
theorem Nodes.order_lt {nodes : List JoinNode} (hnodes : Nodes mode scope nodes) {n k : JoinNode}
    (hn : n ∈ nodes) (hk : k ∈ nodes) (hne : n.path ≠ k.path) (hle : n.order ≤ k.order) :
    n.order < k.order := by
  obtain ⟨⟨_, hn'⟩, horder, -, -⟩ := (hnodes.resolves n hn).spec
  obtain ⟨⟨_, hk'⟩, horder', -, -⟩ := (hnodes.resolves k hk).spec
  refine lt_of_le_of_ne hle fun heq => hne ?_
  rw [horder, horder'] at heq
  exact declaration_injective hn' hk' heq

theorem Nodes.eq_of_path {nodes : List JoinNode} (hnodes : Nodes mode scope nodes)
    {n k : JoinNode} (hn : n ∈ nodes) (hk : k ∈ nodes) (h : n.path = k.path) : n = k :=
  List.inj_on_of_nodup_map hnodes.nodup hn hk h

theorem Nodes.of_perm {nodes nodes' : List JoinNode} (hnodes : Nodes mode scope nodes)
    (h : nodes.Perm nodes') : Nodes mode scope nodes' where
  resolves n hn := hnodes.resolves n (h.symm.subset hn)
  nodup := (h.map _).nodup_iff.1 hnodes.nodup

/-- Taking a node away leaves all others. -/
theorem Nodes.perm_without {nodes : List JoinNode} (hnodes : Nodes mode scope nodes) {n : JoinNode}
    (hn : n ∈ nodes) : nodes.Perm (n :: nodes.filter (·.path != n.path)) := by
  have hkept : nodes.filter (·.path != n.path) = nodes.erase n := by
    have hnodup : nodes.Nodup := hnodes.nodup.of_map _
    rw [hnodup.erase_eq_filter]
    refine List.filter_congr fun k hk => ?_
    rw [Bool.eq_iff_iff, bne_iff_ne, bne_iff_ne]
    exact not_congr ⟨hnodes.eq_of_path hk hn, congrArg _⟩
  rw [hkept]
  exact List.perm_cons_erase hn

theorem Nodes.without {nodes : List JoinNode} (hnodes : Nodes mode scope nodes) (p : JoinPath) :
    Nodes mode scope (nodes.filter (·.path != p)) where
  resolves n hn := hnodes.resolves n (List.mem_filter.1 hn).1
  nodup := hnodes.nodup.sublist (List.filter_sublist.map _)

/-! ## All steps -/

/-- Nodes that are arranged are all there, in the only order there is. -/
theorem arrange_ok {count : Nat} {done : List JoinPath} {nodes ordered : List JoinNode}
    (hnodes : Nodes mode scope nodes) (hcount : nodes.length ≤ count)
    (h : arrange count done nodes = .ok ordered) :
    ordered.Perm nodes ∧ Greedy mode scope done (ordered.map (·.path)) := by
  induction count generalizing done nodes ordered with
  | zero =>
    cases h
    rw [List.eq_nil_of_length_eq_zero (Nat.le_zero.1 hcount)]
    exact ⟨.nil, .nil⟩
  | succ count ih =>
    unfold arrange at h
    split at h
    · rename_i hempty
      cases h
      rw [List.isEmpty_iff.1 hempty]
      exact ⟨.nil, .nil⟩
    · split at h
      · cases h
      · rename_i n hn
        obtain ⟨rest, hrest, h⟩ := bind_ok h
        cases h
        obtain ⟨hready, hleast⟩ := first?_eq_some hn
        obtain ⟨hmem, hfree⟩ := (mem_ready hnodes).1 hready
        have hperm := hnodes.perm_without hmem
        have hless : (nodes.filter (·.path != n.path)).length ≤ count := by
          have := hperm.length_eq
          rw [List.length_cons] at this
          omega
        obtain ⟨hsame, hgreedy⟩ := ih (hnodes.without n.path) hless hrest
        refine ⟨(hsame.cons n).trans hperm.symm, .cons hfree ?_ hgreedy⟩
        -- what is left and could come now is declared later
        intro q hq hqfree
        obtain ⟨k, hk, rfl⟩ := List.mem_map.1 hq
        obtain ⟨hk, hother⟩ := List.mem_filter.1 (hsame.subset hk)
        have hlt := hnodes.order_lt hmem hk (Ne.symm (bne_iff_ne.1 hother))
          (hleast k ((mem_ready hnodes).2 ⟨hk, hqfree⟩))
        obtain ⟨-, horder, -, -⟩ := (hnodes.resolves n hmem).spec
        obtain ⟨-, horder', -, -⟩ := (hnodes.resolves k hk).spec
        rwa [horder, horder'] at hlt

/-- Where nodes cannot be arranged some of them need one another. -/
theorem arrange_error {count : Nat} {done : List JoinPath} {nodes : List JoinNode}
    {e : CompileError} (hnodes : Nodes mode scope nodes)
    (hclosed : ∀ n ∈ nodes, ∀ q, Needs mode scope n.path q → q ∈ done ∨ q ∈ nodes.map (·.path))
    (h : arrange count done nodes = .error e) :
    ∃ stuck, stuck ≠ [] ∧ stuck ⊆ nodes.map (·.path) ∧
      ∀ p ∈ stuck, ∃ q ∈ stuck, Needs mode scope p q := by
  induction count generalizing done nodes with
  | zero => cases h
  | succ count ih =>
    unfold arrange at h
    split at h
    · cases h
    · rename_i hsome
      split at h
      · rename_i hnone
        refine ⟨nodes.map (·.path), fun hnil => hsome ?_, fun _ => id, fun p hp => ?_⟩
        · rw [List.map_eq_nil_iff.1 hnil]
          rfl
        · obtain ⟨n, hn, rfl⟩ := List.mem_map.1 hp
          by_contra hfree
          push Not at hfree
          -- a node that needs none of the rest would be ready
          have hready : n ∈ ready done nodes := (mem_ready hnodes).2
            ⟨hn, fun q hq => (hclosed n hn q hq).resolve_right fun hmem => hfree q hmem hq⟩
          rw [first?_eq_none.1 hnone] at hready
          cases hready
      · rename_i n hn
        obtain ⟨hmem, -⟩ := (mem_ready hnodes).1 (first?_eq_some hn).1
        have hperm := hnodes.perm_without hmem
        have hrest : ∀ k ∈ nodes.filter (·.path != n.path), ∀ q, Needs mode scope k.path q →
            q ∈ n.path :: done ∨ q ∈ (nodes.filter (·.path != n.path)).map (·.path) := by
          intro k hk q hq
          rcases hclosed k (List.mem_filter.1 hk).1 q hq with hdone | hleft
          · exact .inl (List.mem_cons_of_mem _ hdone)
          · rcases List.mem_cons.1 ((hperm.map _).subset hleft) with rfl | hleft
            · exact .inl List.mem_cons_self
            · exact .inr hleft
        rcases bind_error h with h | ⟨_, -, h⟩
        · obtain ⟨stuck, hne, hsub, hstuck⟩ := ih (hnodes.without n.path) hrest h
          exact ⟨stuck, hne, fun p hp => (hperm.map _).symm.subset
            (List.mem_cons_of_mem _ (hsub hp)), hstuck⟩
        · cases h

/-! ## Whatever order the nodes are looked through in -/

theorem first?_perm {nodes nodes' : List JoinNode} (h : nodes.Perm nodes')
    (hdistinct : ∀ n ∈ nodes, ∀ k ∈ nodes, n.order ≤ k.order → k.order ≤ n.order → n = k) :
    first? nodes = first? nodes' := by
  cases hn : first? nodes with
  | none =>
    rw [first?_eq_none.1 hn, List.nil_perm] at h
    exact (first?_eq_none.2 h).symm
  | some n =>
    obtain ⟨hmem, hleast⟩ := first?_eq_some hn
    cases hk : first? nodes' with
    | none =>
      rw [first?_eq_none.1 hk, List.perm_nil] at h
      rw [h] at hmem
      cases hmem
    | some k =>
      obtain ⟨hmem', hleast'⟩ := first?_eq_some hk
      have hk := h.symm.subset hmem'
      rw [hdistinct n hmem k hk (hleast k hk) (hleast' n (h.subset hmem))]

theorem mergeSort_perm {names names' : List String} (h : names.Perm names') :
    names.mergeSort = names'.mergeSort :=
  List.Perm.eq_of_pairwise (fun _ _ _ _ => le_antisymm) (List.pairwise_mergeSort' (· ≤ ·) names)
    (List.pairwise_mergeSort' (· ≤ ·) names')
    ((List.mergeSort_perm _ _).trans (h.trans (List.mergeSort_perm _ _).symm))

/-- Arranging does not depend on the order the nodes come in. -/
theorem arrange_perm {count : Nat} {done : List JoinPath} {nodes nodes' : List JoinNode}
    (hnodes : Nodes mode scope nodes) (h : nodes.Perm nodes') :
    arrange count done nodes = arrange count done nodes' := by
  induction count generalizing done nodes nodes' with
  | zero => rfl
  | succ count ih =>
    have hfirst : first? (ready done nodes) = first? (ready done nodes') := by
      refine first?_perm (h.filter _) fun n hn k hk hle hge => ?_
      have hn := ((mem_ready hnodes).1 hn).1
      have hk := ((mem_ready hnodes).1 hk).1
      by_contra hne
      exact absurd hge (not_le_of_gt (hnodes.order_lt hn hk
        (fun hpath => hne (hnodes.eq_of_path hn hk hpath)) hle))
    have hnames := mergeSort_perm (h.map fun n => Text.join "." n.path)
    rw [arrange, arrange, h.isEmpty_eq, hfirst, hnames]
    split
    · rfl
    · split
      · rfl
      · rw [ih (hnodes.without _) (h.filter _)]

/-! ## Aliases -/

theorem distinctAliases_eq {taken : List String} {joins : List PlannedJoin}
    (h : (taken ++ joins.map (·.label)).Nodup) : distinctAliases taken joins = joins := by
  induction joins generalizing taken with
  | nil => rfl
  | cons j rest ih =>
    rw [List.map_cons] at h
    have hnew : j.label ∉ taken := fun hmem =>
      (List.nodup_append.1 h).2.2 _ hmem _ List.mem_cons_self rfl
    rw [distinctAliases, if_neg fun hmem => hnew (List.contains_iff_mem.1 hmem), ih]
    exact List.perm_middle.nodup_iff.1 h

/-! ## Failures -/

theorem acyclic_require (m : Model) (name : String) : Acyclic (m.require name) := by
  unfold Model.require
  split
  · exact acyclic_ok _
  · exact acyclic_invalidModel _

theorem acyclic_positions (t : m.Member) (p : JoinPath) : Acyclic (positions t p) := by
  induction p generalizing t with
  | nil => exact acyclic_ok _
  | cons name rest ih =>
    unfold positions
    split
    · exact acyclic_unresolvable _ _ _
    · exact (acyclic_require _ _).bind fun u _ => (ih u).bind fun _ _ => acyclic_ok _

/-- In an accepted model no join fails for a circle when it is looked up. -/
theorem acyclic_nodeAt (hcheck : m.check = .ok ()) (parent : JoinPath) (name : String) :
    Acyclic (nodeAt mode scope parent name) := by
  refine (acyclic_positions _ _).bind fun ⟨order, t⟩ hpositions => ?_
  dsimp only
  split
  · exact acyclic_unresolvable _ _ _
  · rename_i j hj
    refine (acyclic_require _ _).bind fun target _ => ?_
    split
    · exact acyclic_ok _
    · rename_i hkind
      refine Acyclic.bind (Acyclic.map _ ?_) fun _ _ => acyclic_ok _
      rw [← name_of_join? hj]
      exact acyclic_condition hcheck mode scope (tableAt_of_positions hpositions)
        (List.mem_of_find?_eq_some hj) fun h => hkind (beq_iff_eq.2 h)

theorem kind_of_close_error (hcheck : m.check = .ok ()) {required : List JoinPath}
    {e : CompileError} (h : close mode scope required [] = some (.error e)) : e.kind ≠ .cyclic := by
  obtain ⟨⟨waiting, nodes⟩, -, hends⟩ := (close_eq_some_iff (s := (required, []))).1 h
  cases hends with
  | @failed path waiting _ _ h =>
    unfold closeStep at h
    split at h
    · cases h
    · split at h
      · cases h
      · rcases bind_error h with h | ⟨_, -, h⟩
        · exact acyclic_nodeAt hcheck _ _ e h
        · cases h

/-! ## Planning -/

variable (mode scope) in
/-- Different paths of joins from the root have different aliases. -/
def AliasesDiffer : Prop :=
  ∀ p q t u, tableAt scope.root p = .ok t → tableAt scope.root q = .ok u →
    aliasFor mode.dialect scope.root.1 p = aliasFor mode.dialect scope.root.1 q → p = q

/-- The labels of planned joins are the aliases of their paths. -/
theorem labels_eq {order : List JoinPath} {joins : List PlannedJoin}
    (h : List.Forall₂ (JoinOf mode scope) order joins) :
    joins.map (·.label) = order.map (aliasFor mode.dialect scope.root.1) := by
  induction h with
  | nil => rfl
  | cons hjoin _ ih =>
    obtain ⟨_, _, _, -, -, -, -, hlabel, -⟩ := hjoin
    rw [List.map_cons, List.map_cons, ih, hlabel]

theorem nodup_labels (haliases : AliasesDiffer mode scope) {order : List JoinPath}
    {joins : List PlannedJoin} (hnodup : order.Nodup)
    (hjoins : List.Forall₂ (JoinOf mode scope) order joins) : (joins.map (·.label)).Nodup := by
  rw [labels_eq hjoins]
  refine List.Nodup.map_on (fun p hp q hq h => ?_) hnodup
  obtain ⟨_, -, _, _, t, -, ht, -⟩ := exists_beside hjoins hp
  obtain ⟨_, -, _, _, u, -, hu, -⟩ := exists_beside hjoins hq
  exact haliases p q t u ht hu h

theorem Arranges.perm {required order order' : List JoinPath}
    (h : Arranges mode scope required order) (h' : Arranges mode scope required order') :
    order.Perm order' :=
  (List.perm_ext_iff_of_nodup h.nodup h'.nodup).2 fun p => (h.mem p).trans (h'.mem p).symm

/-- Planned joins are those of the closure of the required paths, each after what it needs and
before those declared later that could come in its place; of joins with one alias the first is
kept. -/
theorem of?_ok {required : List JoinPath} {joins : List PlannedJoin}
    (h : of? mode scope required = some (.ok joins)) :
    ∃ order all, Arranges mode scope required order ∧ Greedy mode scope [] order ∧
      List.Forall₂ (JoinOf mode scope) order all ∧ joins = distinctAliases [] all := by
  obtain ⟨closed, hclose, h⟩ := Option.map_eq_some_iff.1 h
  obtain ⟨found, rfl, harrange⟩ := bind_ok h
  obtain ⟨ordered, hordered, hjoins⟩ := bind_ok harrange
  cases hjoins
  obtain ⟨hnodes, hclosure⟩ := nodes_of_close hclose
  obtain ⟨hperm, hgreedy⟩ := arrange_ok hnodes le_rfl hordered
  have hnodes' := hnodes.of_perm hperm.symm
  have harranges : Arranges mode scope required (ordered.map (·.path)) := {
    nodup := hnodes'.nodup
    mem := fun p => (hperm.map _).mem_iff.trans (hclosure p).symm
    legal := hgreedy.legal }
  refine ⟨ordered.map (·.path), ordered.map (·.join), harranges, hgreedy, ?_, rfl⟩
  rw [List.forall₂_map_left_iff, List.forall₂_map_right_iff, List.forall₂_same]
  intro n hn
  obtain ⟨-, -, -, hjoin⟩ := (hnodes'.resolves n hn).spec
  exact hjoin

/-- Planning for an accepted model. The joins that are planned are those of the closure of the
required paths, each after what it needs and before those declared later that could come in its
place, in the only such order; of joins with one alias the first is kept, which is all of them where
aliases differ. Arranging does not depend on the order the nodes come in. And where planning fails
for a circle the closure cannot be joined in any order. -/
theorem of?_greedy {tables : List Table} {depth : Nat} {m : Model}
    (haccepted : Model.build tables depth = .ok m) (mode : Mode) (scope : Scope m)
    (required : List JoinPath) :
    (∀ joins, of? mode scope required = some (.ok joins) → ∃ order all,
      Arranges mode scope required order ∧ Greedy mode scope [] order ∧
      (∀ order', Arranges mode scope required order' → Greedy mode scope [] order' →
        order' = order) ∧
      List.Forall₂ (JoinOf mode scope) order all ∧ joins = distinctAliases [] all ∧
      (AliasesDiffer mode scope → joins = all)) ∧
    (∀ found nodes, close mode scope required [] = some (.ok found) → nodes.Perm found →
      arrange nodes.length [] nodes = arrange found.length [] found) ∧
    (∀ e, of? mode scope required = some (.error e) → e.kind = .cyclic →
      ∀ order, ¬ Arranges mode scope required order) := by
  refine ⟨fun joins h => ?_, fun found nodes hclose hperm => ?_, fun e h hkind order horder => ?_⟩
  · obtain ⟨order, all, harranges, hgreedy, hall, rfl⟩ := of?_ok h
    refine ⟨order, all, harranges, hgreedy, fun order' harranges' hgreedy' => ?_, hall, rfl,
      fun haliases => ?_⟩
    · exact hgreedy'.unique hgreedy (harranges'.perm harranges)
    · exact distinctAliases_eq (nodup_labels haliases harranges.nodup hall)
  · obtain ⟨hnodes, -⟩ := nodes_of_close hclose
    rw [hperm.length_eq]
    exact arrange_perm (hnodes.of_perm hperm.symm) hperm
  · obtain ⟨closed, hclose, h⟩ := Option.map_eq_some_iff.1 h
    rcases bind_error h with rfl | ⟨found, rfl, harrange⟩
    · exact kind_of_close_error (Model.check_of_build haccepted) hclose hkind
    rcases bind_error harrange with harrange | ⟨_, -, hdone⟩
    · obtain ⟨hnodes, hclosure⟩ := nodes_of_close hclose
      -- what a needed join needs is needed too, so the stuck ones are all of the closure
      have hclosed : ∀ n ∈ found, ∀ q, Needs mode scope n.path q →
          q ∈ [] ∨ q ∈ found.map (·.path) := by
        rintro n hn q ⟨hne, -, hq⟩
        have hn := (hclosure n.path).2 (List.mem_map_of_mem hn)
        refine .inr ((hclosure q).1 ?_)
        rcases hq with rfl | hq
        · exact .start hn hne (List.dropLast_prefix _)
        · exact .read hn hq
      obtain ⟨stuck, hne, hsub, hstuck⟩ := arrange_error hnodes hclosed harrange
      obtain ⟨p, hp⟩ := List.exists_mem_of_ne_nil _ hne
      refine horder.legal.not_mem_of_stuck hstuck (fun _ _ => List.not_mem_nil) p hp ?_
      exact (horder.mem p).2 ((hclosure p).2 (hsub hp))
    · cases hdone

end

/-! ## Tables that lead no further -/

section

variable {m : Model} {root : m.Member}

/-- Where no join leads to a table that has joins, no path goes through two. -/
theorem path_of_star (hstar : ∀ j ∈ root.1.joins, ∀ u, m.member? j.table = some u → u.1.joins = [])
    {p : JoinPath} {t : m.Member} (hp : tableAt root p = .ok t) :
    p ∈ [] :: root.1.joins.map fun j => [j.name] := by
  cases tableAt_eq_ok_iff.1 hp with
  | here => exact List.mem_cons_self
  | along hjoin htarget hrest =>
    have hj := List.mem_of_find?_eq_some hjoin
    cases hrest with
    | here => exact List.mem_cons_of_mem _ (List.mem_map.2 ⟨_, hj, by rw [name_of_join? hjoin]⟩)
    | along hjoin' _ _ =>
      rw [Table.join?, hstar _ hj _ htarget] at hjoin'
      cases hjoin'

/-- Names that tell the joins of such a table apart tell its paths apart. -/
theorem injective_of_star
    (hstar : ∀ j ∈ root.1.joins, ∀ u, m.member? j.table = some u → u.1.joins = [])
    {name : JoinPath → String}
    (hnames : (([] :: root.1.joins.map fun j => [j.name]).map name).Nodup) {p q : JoinPath}
    {t u : m.Member} (hp : tableAt root p = .ok t) (hq : tableAt root q = .ok u)
    (h : name p = name q) : p = q :=
  List.inj_on_of_nodup_map hnames (path_of_star hstar hp) (path_of_star hstar hq) h

end

/-! ## A join that is declared before the join its condition reads through -/

/-- Cities lead to their countries by way of their regions. -/
def cities : Table where
  name := "cities"
  source := .physical none "cities"
  joins := [
    { name := "country", table := "countries"
      condition := "\x7b\x7bregion.$country_id\x7d\x7d = \x7b\x7bcountry.$id\x7d\x7d" },
    { name := "region", table := "regions"
      condition := "\x7b\x7b$region_id\x7d\x7d = \x7b\x7bregion.$id\x7d\x7d" }]

/-- Countries, which lead nowhere. -/
def countries : Table where
  name := "countries"
  source := .physical none "countries"

/-- Regions, which lead nowhere. -/
def regions : Table where
  name := "regions"
  source := .physical none "regions"

/-- Cities, countries and regions. -/
def atlas : Model where
  tables := [cities, countries, regions]

/-- The cities of the atlas. -/
def atlasCities : atlas.Member := ⟨cities, List.mem_cons_self⟩

/-- The country of the region of a city. -/
def joinCountry : PlannedJoin where
  kind := .left
  table := countries
  label := "cities_country"
  on := some "\"cities_region\".\"country_id\" = \"cities_country\".\"id\""

/-- The region of a city. -/
def joinRegion : PlannedJoin where
  kind := .left
  table := regions
  label := "cities_region"
  on := some "\"cities\".\"region_id\" = \"cities_region\".\"id\""

theorem of?_country : of? ⟨.postgres, false⟩ (Scope.of atlasCities .empty) [["country"]] =
    some (.ok [joinRegion, joinCountry]) := by
  let first : JoinNode := ⟨["country"], [0], [["region"]], joinCountry⟩
  let second : JoinNode := ⟨["region"], [1], [], joinRegion⟩
  have hfirst : closeStep ⟨.postgres, false⟩ (Scope.of atlasCities .empty) ["country"] [] [] =
      .ok ([["region"]], [first]) := by decide +kernel
  have hsecond : closeStep ⟨.postgres, false⟩ (Scope.of atlasCities .empty) ["region"] [] [first] =
      .ok ([], [first, second]) := by decide +kernel
  have hclose := (close_eq_some_iff (s := ([["country"]], []))).2
    ⟨_, .head (.take hfirst) (.single (.take hsecond)), .found _⟩
  rw [of?, hclose]
  rfl

/-- The region is joined first, and nothing else could be. -/
theorem of?_greedy_atlas :
    Model.build [cities, countries, regions] = .ok atlas ∧
    AliasesDiffer ⟨.postgres, false⟩ (Scope.of atlasCities .empty) ∧
    of? ⟨.postgres, false⟩ (Scope.of atlasCities .empty) [["country"]] =
      some (.ok [joinRegion, joinCountry]) ∧
    ∃ order, Arranges ⟨.postgres, false⟩ (Scope.of atlasCities .empty) [["country"]] order ∧
      Greedy ⟨.postgres, false⟩ (Scope.of atlasCities .empty) [] order ∧
      (∀ order', Arranges ⟨.postgres, false⟩ (Scope.of atlasCities .empty) [["country"]] order' →
        Greedy ⟨.postgres, false⟩ (Scope.of atlasCities .empty) [] order' → order' = order) ∧
      List.Forall₂ (JoinOf ⟨.postgres, false⟩ (Scope.of atlasCities .empty)) order
        [joinRegion, joinCountry] := by
  have hbuild : Model.build [cities, countries, regions] = .ok atlas := by decide +kernel
  have haliases : AliasesDiffer ⟨.postgres, false⟩ (Scope.of atlasCities .empty) :=
    fun p q t u hp hq => injective_of_star (by decide +kernel) (by decide +kernel) hp hq
  obtain ⟨order, all, harranges, hgreedy, hunique, hjoins, -, hall⟩ :=
    (of?_greedy hbuild ⟨.postgres, false⟩ (Scope.of atlasCities .empty) [["country"]]).1 _
      of?_country
  refine ⟨hbuild, haliases, of?_country, order, harranges, hgreedy, hunique, ?_⟩
  rwa [hall haliases]

/-! ## Two joins of one alias -/

/-- The name of a join whose alias is too long for PostgreSQL. -/
def placedOn : String := "day_of_the_calendar_year_in_which_the_customer_placed_the_order"

/-- A join with the name that the alias of the other is shortened to. -/
def placedShort : String := "day_of_the_calendar_year_in_which_the_customer__9deaf7bd"

/-- Orders with two joins whose aliases become the same. -/
def orders : Table where
  name := "orders"
  source := .physical none "orders"
  columns := [{ name := "id", formula := "\x7b\x7b$id\x7d\x7d", kind := .dimension }]
  joins := [
    { name := placedOn, table := "days", kind := .cross },
    { name := placedShort, table := "days", kind := .cross }]

/-- Days with their dates. -/
def days : Table where
  name := "days"
  source := .physical none "days"
  columns := [{ name := "date", formula := "\x7b\x7b$date\x7d\x7d", kind := .dimension }]

/-- Orders and days. -/
def shop : Model where
  tables := [orders, days]

/-- The orders of the shop. -/
def shopOrders : shop.Member := ⟨orders, List.mem_cons_self⟩

theorem alias_placedOn :
    aliasFor .postgres orders [placedOn] = aliasFor .postgres orders [placedShort] := by
  decide +kernel

/-- The node of a join of the orders. -/
def dayNode (name : String) (i : Nat) : JoinNode where
  path := [name]
  order := [i]
  needs := []
  join := { kind := .cross, table := days, label := aliasFor .postgres orders [name], on := none }

theorem nodeAt_day {name : String} {i : Nat}
    (hjoin : orders.join? name = some { name, table := "days", kind := .cross })
    (hindex : orders.joinIndex? name = some i) :
    nodeAt ⟨.postgres, false⟩ (Scope.of shopOrders .empty) [] name = .ok (dayNode name i) := by
  have hmember : shop.require "days" = .ok ⟨days, by decide +kernel⟩ := by decide +kernel
  have hroot : shopOrders.1 = orders := rfl
  simp only [nodeAt, positions, Scope.of, hroot, hjoin, hindex, hmember, bind, Except.bind]
  rfl

theorem closeStep_day {name : String} {i : Nat} {waiting : List JoinPath} {found : List JoinNode}
    (hjoin : orders.join? name = some { name, table := "days", kind := .cross })
    (hindex : orders.joinIndex? name = some i) (hnew : found.any (·.path == [name]) = false) :
    closeStep ⟨.postgres, false⟩ (Scope.of shopOrders .empty) [name] waiting found =
      .ok (waiting, found ++ [dayNode name i]) := by
  have hneeds : waiting ++ JoinPath.starts [] ++ (dayNode name i).needs = waiting := by
    rw [JoinPath.starts, List.append_nil]
    exact List.append_nil _
  simp only [closeStep, List.getLast?_singleton, hnew, Bool.false_eq_true, if_false,
    List.dropLast_singleton, nodeAt_day hjoin hindex, bind, Except.bind, hneeds]
  rfl

/-- The names of the two paths differ, and both are to be joined, but only one is. -/
theorem of?_shop :
    Model.build [orders, days] = .ok shop ∧
    (∀ p q t u, tableAt shopOrders p = .ok t → tableAt shopOrders q = .ok u →
      Text.join "_" p = Text.join "_" q → p = q) ∧
    (∀ p ∈ [[placedOn], [placedShort]], Closure ⟨.postgres, false⟩ (Scope.of shopOrders .empty)
      [[placedOn], [placedShort]] p) ∧
    [placedOn] ≠ [placedShort] ∧
    ∃ j, of? ⟨.postgres, false⟩ (Scope.of shopOrders .empty) [[placedOn], [placedShort]] =
      some (.ok [j]) := by
  have hfirst : closeStep ⟨.postgres, false⟩ (Scope.of shopOrders .empty) [placedOn]
      [[placedShort]] [] = .ok ([[placedShort]], [dayNode placedOn 0]) :=
    closeStep_day (by decide +kernel) (by decide +kernel) rfl
  have hsecond : closeStep ⟨.postgres, false⟩ (Scope.of shopOrders .empty) [placedShort] []
      [dayNode placedOn 0] = .ok ([], [dayNode placedOn 0, dayNode placedShort 1]) :=
    closeStep_day (by decide +kernel) (by decide +kernel) (by decide +kernel)
  have hclose := (close_eq_some_iff (s := ([[placedOn], [placedShort]], []))).2
    ⟨_, .head (.take hfirst) (.single (.take hsecond)), .found _⟩
  have hkept : distinctAliases [] [(dayNode placedOn 0).join, (dayNode placedShort 1).join] =
      [(dayNode placedOn 0).join] := by
    simp only [distinctAliases, dayNode, alias_placedOn, List.contains_nil, Bool.false_eq_true,
      if_false, List.contains_cons, beq_self_eq_true, Bool.true_or, if_true]
  refine ⟨by decide +kernel, fun p q t u hp hq => ?_, fun p hp => .required hp ?_,
    by decide +kernel, (dayNode placedOn 0).join, ?_⟩
  · exact injective_of_star (by decide +kernel) (by decide +kernel) hp hq
  · rintro rfl
    simp at hp
  · rw [of?, hclose]
    exact congrArg (fun joins => some (Except.ok joins)) hkept

end JoinPlan

end Rollup
