/-
What the joins of a statement depend on, said by the joins of the model and what their conditions
stand for: a join needs its parent and every join its condition reads through, a cross join its
parent alone. The joins that a statement comes to have are the closure of the required ones under
starts and under what conditions read, and the search for joins finds exactly these.
-/
import Rollup.Proofs.Compile.Closing
import Rollup.Proofs.Expansion.Stack

namespace Rollup

open Expansion

namespace JoinPlan

section

variable {m : Model} (mode : Mode) (scope : Scope m)

/-! ## Joins of the model -/

/-- The join at the end of a path, and the table that declares it. -/
inductive Declared : JoinPath → m.Member → Join → Prop
  | mk {parent name t j} (htable : tableAt scope.root parent = .ok t)
    (hjoin : t.1.join? name = some j) : Declared (parent ++ [name]) t j

/-- What the condition of a join stands for, and the paths walked for it: the one to the table that
declares the join, where the condition is read, and those of its references. Cross joins have no
condition. -/
def Condition (p : JoinPath) (sql : String) (walked : List JoinPath) : Prop :=
  ∃ t j u ps, Declared scope p t j ∧ j.kind ≠ .cross ∧ Template.parse j.condition = .ok u ∧
    Denotes mode scope ⟨t, p.dropLast, none, .empty, none⟩ u sql ps ∧ walked = p.dropLast :: ps

/-- The condition of a join reads through another path. -/
def Reads (p q : JoinPath) : Prop :=
  q ≠ [] ∧ ∃ sql walked, Condition mode scope p sql walked ∧ ∃ w ∈ walked, q <+: w

/-- What must be joined before: the parent, and the other paths the condition reads through. -/
def Needs (p q : JoinPath) : Prop :=
  q ≠ [] ∧ q ≠ p ∧ (q = p.dropLast ∨ Reads mode scope p q)

/-- The paths a statement comes to join through. -/
inductive Closure (required : List JoinPath) : JoinPath → Prop
  | required {p : JoinPath} (h : p ∈ required) (hne : p ≠ []) : Closure required p
  | start {p q : JoinPath} (hp : Closure required p) (hne : q ≠ []) (hq : q <+: p) :
    Closure required q
  | read {p q : JoinPath} (hp : Closure required p) (hq : Reads mode scope p q) :
    Closure required q

/-- The join that a path becomes in a statement. -/
def JoinOf (p : JoinPath) (planned : PlannedJoin) : Prop :=
  ∃ t j target, Declared scope p t j ∧ tableAt scope.root p = .ok target ∧
    planned.kind = j.kind ∧ planned.table = target.1 ∧
    planned.label = aliasFor mode.dialect scope.root.1 p ∧
    (j.kind = .cross → planned.on = none) ∧
    (j.kind ≠ .cross → ∃ sql walked, Condition mode scope p sql walked ∧ planned.on = some sql)

/-- The positions of the joins along a path, each in the order of declaration. -/
def declaration (t : m.Member) (p : JoinPath) : List Nat :=
  match positions t p with
  | .ok (order, _) => order
  | .error _ => []

variable {mode scope}

theorem Declared.unique {p : JoinPath} {t u : m.Member} {j k : Join} (h : Declared scope p t j)
    (h' : Declared scope p u k) : t = u ∧ j = k := by
  generalize hq : p = q at h'
  cases h with | mk htable hjoin =>
  cases h' with | mk htable' hjoin' =>
  obtain ⟨rfl, hname⟩ := List.append_inj' hq rfl
  cases hname
  cases htable.symm.trans htable'
  cases hjoin.symm.trans hjoin'
  exact ⟨rfl, rfl⟩

theorem Condition.unique {p : JoinPath} {sql sql' : String} {ws ws' : List JoinPath}
    (h : Condition mode scope p sql ws) (h' : Condition mode scope p sql' ws') :
    sql = sql' ∧ ws = ws' := by
  obtain ⟨t, j, u, ps, hdeclared, -, hparse, hdenotes, rfl⟩ := h
  obtain ⟨t', j', u', ps', hdeclared', -, hparse', hdenotes', rfl⟩ := h'
  obtain ⟨rfl, rfl⟩ := hdeclared.unique hdeclared'
  cases hparse.symm.trans hparse'
  obtain ⟨rfl, rfl⟩ := hdenotes.unique hdenotes'
  exact ⟨rfl, rfl⟩

/-! ## Positions -/

theorem member?_of_require {name : String} {t : m.Member} (h : m.require name = .ok t) :
    m.member? name = some t := by
  unfold Model.require at h
  split at h
  · rename_i u hu
    cases h
    exact hu
  · cases h

theorem leads_of_positions {t u : m.Member} {p : JoinPath} {order : List Nat}
    (h : positions t p = .ok (order, u)) (path : JoinPath) : Leads t path p u (path ++ p) := by
  induction p generalizing t order path with
  | nil =>
    cases h
    rw [List.append_nil]
    exact .here
  | cons name rest ih =>
    obtain ⟨j, v, order', hj, hv, hrest, rfl⟩ := positions_cons h
    have hleads := ih hrest (path ++ [name])
    rw [List.append_assoc, List.singleton_append] at hleads
    exact .along hj (member?_of_require hv) hleads

theorem positions_of_leads {t u : m.Member} {p path q : JoinPath} (h : Leads t path p u q) :
    ∃ order, positions t p = .ok (order, u) := by
  induction h with
  | here => exact ⟨[], rfl⟩
  | @along t u v path q name rest j hjoin htarget _ ih =>
    obtain ⟨order, horder⟩ := ih
    have hrequire : m.require j.table = .ok u := by rw [Model.require, htarget]
    refine ⟨(t.1.joinIndex? name).getD 0 :: order, ?_⟩
    simp only [positions, hjoin, hrequire, horder, bind, Except.bind]
    rfl

theorem tableAt_of_positions {root t : m.Member} {p : JoinPath} {order : List Nat}
    (h : positions root p = .ok (order, t)) : tableAt root p = .ok t :=
  tableAt_eq_ok_iff.2 (leads_of_positions h [])

theorem positions_concat {t u v : m.Member} {p : JoinPath} {order : List Nat} {name : String}
    {j : Join} (h : positions t p = .ok (order, u)) (hj : u.1.join? name = some j)
    (hv : m.require j.table = .ok v) :
    positions t (p ++ [name]) = .ok (order ++ [(u.1.joinIndex? name).getD 0], v) := by
  induction p generalizing t order with
  | nil =>
    cases h
    simp only [List.nil_append, positions, hj, hv, bind, Except.bind]
    rfl
  | cons first rest ih =>
    obtain ⟨k, w, order', hk, hw, hrest, rfl⟩ := positions_cons h
    simp only [List.cons_append, positions, hk, hw, ih hrest, bind, Except.bind]
    rfl

/-- Two joins of a table have two positions. -/
theorem joinIndex_injective {t : Table} {name name' : String} {j j' : Join}
    (h : t.join? name = some j) (h' : t.join? name' = some j')
    (hindex : (t.joinIndex? name).getD 0 = (t.joinIndex? name').getD 0) : name = name' := by
  have hposition : ∀ {name : String} {j : Join}, t.join? name = some j →
      ∃ hi : (t.joinIndex? name).getD 0 < t.joins.length,
        t.joins[(t.joinIndex? name).getD 0].name = name := by
    intro name j h
    obtain ⟨k, hk, hname⟩ := List.find?_isSome.1 (Option.isSome_of_eq_some h)
    have hsome : (t.joinIndex? name).isSome := by
      rw [Table.joinIndex?, List.findIdx?_isSome]
      exact List.any_eq_true.2 ⟨k, hk, hname⟩
    obtain ⟨i, hi⟩ := Option.isSome_iff_exists.1 hsome
    obtain ⟨hlt, hname, -⟩ := List.findIdx?_eq_some_iff_getElem.1 hi
    simp only [hi, Option.getD_some]
    exact ⟨hlt, eq_of_beq hname⟩
  obtain ⟨hi, hname⟩ := hposition h
  obtain ⟨hi', hname'⟩ := hposition h'
  calc name = t.joins[(t.joinIndex? name).getD 0].name := hname.symm
    _ = t.joins[(t.joinIndex? name').getD 0].name := by simp only [hindex]
    _ = name' := hname'

/-- Paths of the same positions are the same. -/
theorem positions_injective {t u v : m.Member} {p q : JoinPath} {order : List Nat}
    (hp : positions t p = .ok (order, u)) (hq : positions t q = .ok (order, v)) : p = q := by
  induction p generalizing t q order with
  | nil =>
    cases hp
    cases q with
    | nil => rfl
    | cons name rest =>
      obtain ⟨_, _, _, -, -, -, horder⟩ := positions_cons hq
      cases horder
  | cons name rest ih =>
    obtain ⟨j, w, order', hj, hw, hrest, rfl⟩ := positions_cons hp
    cases q with
    | nil => cases hq
    | cons name' rest' =>
      obtain ⟨j', w', order'', hj', hw', hrest', horder⟩ := positions_cons hq
      obtain ⟨hindex, rfl⟩ := List.cons.inj horder
      obtain rfl := joinIndex_injective hj hj' hindex
      cases hj.symm.trans hj'
      cases hw.symm.trans hw'
      rw [ih hrest hrest']

theorem declaration_eq {t u : m.Member} {p : JoinPath} {order : List Nat}
    (h : positions t p = .ok (order, u)) : declaration t p = order := by
  rw [declaration, h]

theorem declaration_injective {root t u : m.Member} {p q : JoinPath}
    (hp : tableAt root p = .ok t) (hq : tableAt root q = .ok u)
    (h : declaration root p = declaration root q) : p = q := by
  obtain ⟨order, hp⟩ := positions_of_leads (tableAt_eq_ok_iff.1 hp)
  obtain ⟨order', hq⟩ := positions_of_leads (tableAt_eq_ok_iff.1 hq)
  rw [declaration_eq hp, declaration_eq hq] at h
  subst h
  exact positions_injective hp hq

/-! ## Nodes -/

theorem reads_iff {p q : JoinPath} {sql : String} {walked : List JoinPath}
    (h : Condition mode scope p sql walked) :
    Reads mode scope p q ↔ q ≠ [] ∧ ∃ w ∈ walked, q <+: w := by
  refine and_congr_right fun _ => ⟨?_, fun hw => ⟨sql, walked, h, hw⟩⟩
  rintro ⟨sql', walked', h', hw⟩
  obtain ⟨-, rfl⟩ := h.unique h'
  exact hw

/-- A condition that is expanded has its text and reads through the joins recorded for it. -/
theorem condition_of_resolveTemplate {p : JoinPath} {t : m.Member} {j : Join} {label : String}
    {f : Fragment} (hdeclared : Declared scope p t j) (hkind : j.kind ≠ .cross)
    (hf : resolveTemplate mode scope p.dropLast j.condition label = .ok f) :
    ∃ walked, Condition mode scope p f.sql walked ∧ ∀ q, q ∈ f.joins ↔ Reads mode scope p q := by
  obtain ⟨t', u, ps, htable, hparse, hdenotes, hjoins⟩ := resolveTemplate_denotes hf
  have hsame : t' = t := by
    cases hdeclared with | mk htable' _ =>
    rw [List.dropLast_concat, htable'] at htable
    cases htable
    rfl
  subst hsame
  have hcondition : Condition mode scope p f.sql (p.dropLast :: ps) :=
    ⟨t', j, u, ps, hdeclared, hkind, hparse, hdenotes, rfl⟩
  exact ⟨_, hcondition, fun q => by rw [hjoins, reads_iff hcondition]⟩

theorem not_reads_of_cross {p q : JoinPath} {t : m.Member} {j : Join}
    (hdeclared : Declared scope p t j) (hkind : j.kind = .cross) : ¬ Reads mode scope p q := by
  rintro ⟨-, sql, walked, ⟨t', j', u, ps, hdeclared', hkind', -⟩, -⟩
  obtain ⟨-, rfl⟩ := hdeclared.unique hdeclared'
  exact hkind' hkind

/-- A node that is found holds its position, its needs, and its join. -/
theorem Resolves.spec {p : JoinPath} {node : JoinNode} (h : Resolves mode scope p node) :
    (∃ target, tableAt scope.root p = .ok target) ∧ node.order = declaration scope.root p ∧
      (∀ q, q ∈ node.needs ↔ Needs mode scope p q) ∧ JoinOf mode scope p node.join := by
  obtain ⟨name, hname, hnode⟩ := h
  obtain ⟨order, t, j, target, condition, hpositions, hj, htarget, hcondition, rfl⟩ :=
    nodeAt_eq hnode
  have hp : p = p.dropLast ++ [name] := (List.dropLast_append_getLast? name hname).symm
  generalize hparent : p.dropLast = parent at *
  subst hp
  have hdeclared : Declared scope (parent ++ [name]) t j :=
    .mk (tableAt_of_positions hpositions) hj
  have hend := positions_concat hpositions hj htarget
  have htable := tableAt_of_positions hend
  -- what the condition reads is what was recorded for it
  have hreads : ∀ q, Reads mode scope (parent ++ [name]) q ↔
      q ∈ (condition.map (·.joins)).getD [] := by
    intro q
    rcases hcondition with ⟨hkind, rfl⟩ | ⟨hkind, f, hf, rfl⟩
    · exact iff_of_false (not_reads_of_cross hdeclared hkind) List.not_mem_nil
    · rw [← hparent] at hf
      obtain ⟨_, -, hjoins⟩ := condition_of_resolveTemplate hdeclared hkind hf
      exact (hjoins q).symm
  refine ⟨⟨target, htable⟩, (declaration_eq hend).symm, fun q => ?_, ?_⟩
  · rw [Needs, hparent, hreads, JoinPath.mem_union, List.mem_filter, Bool.and_eq_true,
      Bool.not_eq_true', List.isEmpty_eq_false_iff, bne_iff_ne]
    have hfirst : q ∈ (if parent.isEmpty then [] else [parent]) ↔ q ≠ [] ∧ q = parent := by
      cases parent with
      | nil => exact iff_of_false List.not_mem_nil fun h => h.1 h.2
      | cons first rest =>
        rw [List.isEmpty_cons, if_neg Bool.false_ne_true, List.mem_singleton]
        exact ⟨fun h => ⟨by rw [h]; exact List.cons_ne_nil _ _, h⟩, And.right⟩
    have hshorter : q = parent → q ≠ parent ++ [name] := by
      rintro rfl h
      exact absurd (List.self_eq_append_right.1 h) (List.cons_ne_nil _ _)
    rw [hfirst]
    constructor
    · rintro (⟨hne, hq⟩ | ⟨hq, hne, hother⟩)
      · exact ⟨hne, hshorter hq, .inl hq⟩
      · exact ⟨hne, hother, .inr hq⟩
    · rintro ⟨hne, hother, hq | hq⟩
      · exact .inl ⟨hne, hq⟩
      · exact .inr ⟨hq, hne, hother⟩
  · refine ⟨t, j, target, hdeclared, htable, rfl, rfl, rfl, fun hkind => ?_, fun hkind => ?_⟩
    · rcases hcondition with ⟨-, rfl⟩ | ⟨hkind', -⟩
      · rfl
      · exact (hkind' hkind).elim
    · rcases hcondition with ⟨hkind', -⟩ | ⟨-, f, hf, rfl⟩
      · exact (hkind hkind').elim
      · rw [← hparent] at hf
        obtain ⟨walked, hsql, -⟩ := condition_of_resolveTemplate hdeclared hkind hf
        exact ⟨f.sql, walked, hsql, rfl⟩

/-! ## The closure -/

/-- Where every needed path has its join, the paths that the search comes to need are the closure
of those required. -/
theorem closure_iff_needed {required : List JoinPath}
    (hresolves : ∀ p, Needed mode scope required p → ∃ node, Resolves mode scope p node)
    {p : JoinPath} : Closure mode scope required p ↔ Needed mode scope required p := by
  constructor
  · intro h
    induction h with
    | required h hne => exact .required h hne
    | @start p q _ hne hq ih =>
      by_cases hsame : q = p
      · rwa [hsame]
      · obtain ⟨node, name, hname, -⟩ := hresolves p ih
        rw [← List.dropLast_append_getLast? name hname, List.prefix_concat_iff,
          List.dropLast_append_getLast? name hname] at hq
        exact .start ih (JoinPath.mem_starts.2 ⟨hne, hq.resolve_left hsame⟩)
    | @read p q _ hq ih =>
      by_cases hsame : q = p
      · rwa [hsame]
      · obtain ⟨node, hnode⟩ := hresolves p ih
        obtain ⟨-, -, hneeds, -⟩ := hnode.spec
        exact .need ih hnode ((hneeds q).2 ⟨hq.1, hsame, .inr hq⟩)
  · intro h
    induction h with
    | required h hne => exact .required h hne
    | start _ hq ih =>
      obtain ⟨hne, hq⟩ := JoinPath.mem_starts.1 hq
      exact .start ih hne (hq.trans (List.dropLast_prefix _))
    | need _ hnode hq ih =>
      obtain ⟨-, -, hneeds, -⟩ := hnode.spec
      obtain ⟨hne, -, rfl | hread⟩ := (hneeds _).1 hq
      · exact .start ih hne (List.dropLast_prefix _)
      · exact .read ih hread

/-- Nodes found for different paths. -/
structure Nodes (mode : Mode) (scope : Scope m) (nodes : List JoinNode) : Prop where
  resolves : ∀ n ∈ nodes, Resolves mode scope n.path n
  nodup : (nodes.map (·.path)).Nodup

/-- The search finds one node for every path of the closure. -/
theorem nodes_of_close {required : List JoinPath} {found : List JoinNode}
    (h : close mode scope required [] = some (.ok found)) :
    Nodes mode scope found ∧
      ∀ p, Closure mode scope required p ↔ p ∈ found.map (·.path) := by
  obtain ⟨⟨waiting, nodes⟩, hsteps, hends⟩ := (close_eq_some_iff (s := (required, []))).1 h
  have hinv := invariant_start.steps hsteps
  cases hends
  refine ⟨⟨fun n hn => (hinv.found n hn).2, hinv.nodup⟩, fun p => ?_⟩
  have hresolves : ∀ p, Needed mode scope required p → ∃ node, Resolves mode scope p node := by
    intro p hp
    obtain ⟨n, hn, rfl⟩ := hinv.covers hp
    exact ⟨n, (hinv.found n hn).2⟩
  rw [closure_iff_needed hresolves, List.mem_map]
  constructor
  · exact hinv.covers
  · rintro ⟨n, hn, rfl⟩
    exact (hinv.found n hn).1

end

end JoinPlan

end Rollup
