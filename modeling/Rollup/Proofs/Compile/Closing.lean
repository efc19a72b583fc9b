/-
Finding the joins that some paths need. The waiting paths are taken up one after the other, and what
a join brings along waits behind all that waited before. So as long as the search goes on every
needed path is taken up in its turn; it goes on for ever if and only if the needed paths are
infinitely many and all of them have joins.
-/
import Rollup.Compile.Joins
import Rollup.Proofs.Expansion.Basic
import Rollup.Proofs.Outcome
import Mathlib.Data.Set.Finite.List
import Mathlib.Logic.Relation

namespace Rollup

namespace JoinPlan

section

variable {m : Model} (mode : Mode) (scope : Scope m)

/-! ## Joins and what they bring along -/

/-- A path has a join at its end. -/
def Resolves (p : JoinPath) (node : JoinNode) : Prop :=
  ∃ name, p.getLast? = some name ∧ nodeAt mode scope p.dropLast name = .ok node

/-- The paths that planning the required ones comes to need. -/
inductive Needed (required : List JoinPath) : JoinPath → Prop
  | required {p : JoinPath} (h : p ∈ required) (hne : p ≠ []) : Needed required p
  /-- The joins on the way to a needed one. -/
  | start {p q : JoinPath} (hp : Needed required p) (hq : q ∈ JoinPath.starts p.dropLast) :
    Needed required q
  /-- The parent of a needed join, and the joins that its condition reads through. -/
  | need {p q : JoinPath} {node : JoinNode} (hp : Needed required p)
    (hnode : Resolves mode scope p node) (hq : q ∈ node.needs) : Needed required q

variable {mode scope}

theorem name_of_join? {t : Table} {name : String} {j : Join} (h : t.join? name = some j) :
    j.name = name := by
  have hname := List.find?_some (h : t.joins.find? (·.name == name) = some j)
  exact eq_of_beq hname

theorem positions_cons {t u : m.Member} {name : String} {rest : JoinPath} {order : List Nat}
    (h : positions t (name :: rest) = .ok (order, u)) :
    ∃ j v order', t.1.join? name = some j ∧ m.require j.table = .ok v ∧
      positions v rest = .ok (order', u) ∧ order = (t.1.joinIndex? name).getD 0 :: order' := by
  unfold positions at h
  split at h
  · cases h
  · rename_i j hj
    obtain ⟨v, hv, h⟩ := bind_ok h
    obtain ⟨⟨order', u'⟩, hrest, h⟩ := bind_ok h
    cases h
    exact ⟨j, v, order', hj, hv, hrest, rfl⟩

/-- What is found at the end of a path that has a join there. -/
theorem nodeAt_eq {parent : JoinPath} {name : String} {node : JoinNode}
    (h : nodeAt mode scope parent name = .ok node) :
    ∃ order t j target condition, positions scope.root parent = .ok (order, t) ∧
      t.1.join? name = some j ∧ m.require j.table = .ok target ∧
      ((j.kind = .cross ∧ condition = none) ∨ (j.kind ≠ .cross ∧ ∃ f,
        resolveTemplate mode scope parent j.condition ("join:" ++ name) = .ok f ∧
        condition = some f)) ∧
      node = {
        path := parent ++ [name]
        order := order ++ [(t.1.joinIndex? name).getD 0]
        needs := JoinPath.union (if parent.isEmpty then [] else [parent])
          (((condition.map (·.joins)).getD []).filter fun p => !p.isEmpty && p != parent ++ [name])
        join := {
          kind := j.kind
          table := target.1
          label := aliasFor mode.dialect scope.root.1 (parent ++ [name])
          on := condition.map (·.sql) } } := by
  obtain ⟨⟨order, t⟩, hpositions, h⟩ := bind_ok h
  dsimp only at h
  split at h
  · cases h
  · rename_i j hj
    obtain ⟨target, htarget, h⟩ := bind_ok h
    split at h
    · rename_i hcross
      cases h
      exact ⟨order, t, j, target, none, hpositions, hj, htarget, .inl ⟨eq_of_beq hcross, rfl⟩, rfl⟩
    · rename_i hcross
      obtain ⟨condition, hcondition, h⟩ := bind_ok h
      obtain ⟨f, hf, rfl⟩ := map_ok hcondition
      cases h
      exact ⟨order, t, j, target, some f, hpositions, hj, htarget,
        .inr ⟨fun hkind => hcross (beq_iff_eq.2 hkind), f, hf, rfl⟩, rfl⟩

theorem nodeAt_ok {parent : JoinPath} {name : String} {node : JoinNode}
    (h : nodeAt mode scope parent name = .ok node) :
    node.path = parent ++ [name] ∧ ∀ q ∈ node.needs, q ≠ [] := by
  obtain ⟨order, t, j, target, condition, -, -, -, -, rfl⟩ := nodeAt_eq h
  refine ⟨rfl, fun q hq => ?_⟩
  -- the parent is left out at the root, and what the condition reads is filtered
  rcases JoinPath.mem_union.1 hq with hq | hq
  · split at hq
    · cases hq
    · rename_i hparent
      rw [List.mem_singleton.1 hq]
      rintro rfl
      exact hparent rfl
  · rintro rfl
    simp at hq

theorem Resolves.path_eq {p : JoinPath} {node : JoinNode} (h : Resolves mode scope p node) :
    node.path = p := by
  obtain ⟨name, hname, hnode⟩ := h
  rw [(nodeAt_ok hnode).1]
  exact List.dropLast_append_getLast? name hname

theorem Resolves.unique {p : JoinPath} {n k : JoinNode} (hn : Resolves mode scope p n)
    (hk : Resolves mode scope p k) : n = k := by
  obtain ⟨name, hname, hn⟩ := hn
  obtain ⟨name', hname', hk⟩ := hk
  rw [hname] at hname'
  cases hname'
  rw [hn] at hk
  cases hk
  rfl

theorem Needed.ne_nil {required : List JoinPath} {p : JoinPath}
    (h : Needed mode scope required p) : p ≠ [] := by
  cases h with
  | required h hne => exact hne
  | start hp hq => exact JoinPath.ne_nil_of_mem_starts hq
  | need hp hnode hq =>
    obtain ⟨name, -, hnode⟩ := hnode
    exact (nodeAt_ok hnode).2 _ hq

/-! ## Steps -/

/-- The paths that wait and the nodes that were found. -/
abbrev Search := List JoinPath × List JoinNode

variable (mode scope) in
/-- One waiting path is taken up. -/
inductive Step : Search → Search → Prop
  | take {path : JoinPath} {waiting : List JoinPath} {found : List JoinNode} {s : Search}
    (h : closeStep mode scope path waiting found = .ok s) : Step (path :: waiting, found) s

variable (mode scope) in
/-- Planning ends here: nothing waits, or the next path has no join. -/
inductive Ends : Search → Except CompileError (List JoinNode) → Prop
  | found (found : List JoinNode) : Ends ([], found) (.ok found)
  | failed {path : JoinPath} {waiting : List JoinPath} {found : List JoinNode} {e : CompileError}
    (h : closeStep mode scope path waiting found = .error e) :
    Ends (path :: waiting, found) (.error e)

variable (mode scope) in
/-- Any number of waiting paths are taken up. -/
abbrev Steps := Relation.ReflTransGen (Step mode scope)

/-- A path is passed over if it was met before, and else its node is found. -/
theorem closeStep_ok {path : JoinPath} {waiting : List JoinPath} {found : List JoinNode}
    {s : Search} (h : closeStep mode scope path waiting found = .ok s) :
    (s = (waiting, found) ∧ (path ≠ [] → ∃ n ∈ found, n.path = path)) ∨
    ∃ node, Resolves mode scope path node ∧ (∀ n ∈ found, n.path ≠ path) ∧
      s = (waiting ++ (JoinPath.starts path.dropLast ++ node.needs), found ++ [node]) := by
  unfold closeStep at h
  split at h
  · rename_i hlast
    cases h
    exact .inl ⟨rfl, fun hne => (hne (List.getLast?_eq_none_iff.1 hlast)).elim⟩
  · rename_i name hname
    split at h
    · rename_i hmet
      cases h
      rw [List.any_eq_true] at hmet
      obtain ⟨n, hn, hpath⟩ := hmet
      exact .inl ⟨rfl, fun _ => ⟨n, hn, eq_of_beq hpath⟩⟩
    · rename_i hmet
      obtain ⟨node, hnode, h⟩ := bind_ok h
      cases h
      refine .inr ⟨node, ⟨name, hname, hnode⟩, fun n hn hpath => hmet ?_, ?_⟩
      · exact List.any_eq_true.2 ⟨n, hn, beq_iff_eq.2 hpath⟩
      · rw [List.append_assoc]

theorem closeStep_error {path : JoinPath} {waiting : List JoinPath} {found : List JoinNode}
    {e : CompileError} (h : closeStep mode scope path waiting found = .error e) :
    path ≠ [] ∧ ∀ node, ¬ Resolves mode scope path node := by
  unfold closeStep at h
  split at h
  · cases h
  · rename_i name hname
    constructor
    · rintro rfl
      cases hname
    · rintro node ⟨name', hname', hnode⟩
      rw [hname] at hname'
      cases hname'
      split at h
      · cases h
      · rw [hnode] at h
        cases h

theorem close_eq_of_step {s t : Search} (h : Step mode scope s t) :
    close mode scope s.1 s.2 = close mode scope t.1 t.2 := by
  obtain ⟨h⟩ := h
  rw [close, h]

theorem close_eq_of_steps {s t : Search} (h : Steps mode scope s t) :
    close mode scope s.1 s.2 = close mode scope t.1 t.2 := by
  induction h with
  | refl => rfl
  | tail _ hstep ih => rw [ih, close_eq_of_step hstep]

theorem close_of_ends {s : Search} {r : Except CompileError (List JoinNode)}
    (h : Ends mode scope s r) : close mode scope s.1 s.2 = some r := by
  cases h with
  | found found => rw [close]
  | failed h => rw [close, h]

theorem close_eq_some_iff {s : Search} {r : Except CompileError (List JoinNode)} :
    close mode scope s.1 s.2 = some r ↔ ∃ t, Steps mode scope s t ∧ Ends mode scope t r := by
  constructor
  · intro h
    refine close.partial_correctness mode scope
      (fun waiting found r => ∃ t, Steps mode scope (waiting, found) t ∧ Ends mode scope t r)
      (fun rec ih waiting found r h => ?_) s.1 s.2 r h
    split at h
    · cases h
      exact ⟨_, .refl, .found found⟩
    · split at h
      · rename_i e he
        cases h
        exact ⟨_, .refl, .failed he⟩
      · rename_i hstep
        obtain ⟨t, hsteps, hends⟩ := ih _ _ _ h
        exact ⟨t, .head (.take hstep) hsteps, hends⟩
  · rintro ⟨t, hsteps, hends⟩
    rw [close_eq_of_steps hsteps, close_of_ends hends]

/-! ## What every step keeps -/

/-- A path that waits or was taken up. -/
def Met (s : Search) (p : JoinPath) : Prop :=
  p ∈ s.1 ∨ ∃ n ∈ s.2, n.path = p

variable (mode scope) in
/-- Everything met is needed, and everything that was found, and what it brings along, is met. -/
structure Invariant (required : List JoinPath) (s : Search) : Prop where
  waiting : ∀ p ∈ s.1, p ≠ [] → Needed mode scope required p
  found : ∀ n ∈ s.2, Needed mode scope required n.path ∧ Resolves mode scope n.path n
  nodup : (s.2.map (·.path)).Nodup
  required : ∀ p ∈ required, p ≠ [] → Met s p
  closed : ∀ n ∈ s.2, ∀ q ∈ JoinPath.starts n.path.dropLast ++ n.needs, Met s q

variable {required : List JoinPath}

theorem invariant_start : Invariant mode scope required (required, []) where
  waiting _ hp hne := .required hp hne
  found _ hn := (List.not_mem_nil hn).elim
  nodup := .nil
  required _ hp _ := .inl hp
  closed _ hn := (List.not_mem_nil hn).elim

/-- What brings a path along is needed, so the path is. -/
theorem Needed.of_mem {p q : JoinPath} {node : JoinNode} (hp : Needed mode scope required p)
    (hnode : Resolves mode scope p node) (hq : q ∈ JoinPath.starts p.dropLast ++ node.needs) :
    Needed mode scope required q := by
  rcases List.mem_append.1 hq with hq | hq
  · exact .start hp hq
  · exact .need hp hnode hq

theorem Invariant.step {s t : Search} (hs : Invariant mode scope required s)
    (h : Step mode scope s t) : Invariant mode scope required t := by
  obtain ⟨hstep⟩ := h
  rename_i path waiting found
  rcases closeStep_ok hstep with ⟨rfl, hmet⟩ | ⟨node, hnode, hnew, rfl⟩
  · -- a path passed over has a node or is empty, so what it met stays met
    have hkeep : ∀ q, q ≠ [] → Met (path :: waiting, found) q → Met (waiting, found) q := by
      rintro q hne (hq | hq)
      · rcases List.mem_cons.1 hq with rfl | hq
        · exact .inr (hmet hne)
        · exact .inl hq
      · exact .inr hq
    exact {
      waiting := fun p hp => hs.waiting p (List.mem_cons_of_mem _ hp)
      found := hs.found
      nodup := hs.nodup
      required := fun p hp hne => hkeep p hne (hs.required p hp hne)
      closed := fun n hn q hq => by
        have hneeded := Needed.of_mem (hs.found n hn).1 (hs.found n hn).2 hq
        exact hkeep q hneeded.ne_nil (hs.closed n hn q hq) }
  · -- the path has a node now, and all that the node brings along waits
    have hpath := hnode.path_eq
    have hneeded : Needed mode scope required path := by
      refine hs.waiting path List.mem_cons_self ?_
      obtain ⟨name, hname, -⟩ := hnode
      rintro rfl
      cases hname
    have hkeep : ∀ q, Met (path :: waiting, found) q →
        Met (waiting ++ (JoinPath.starts path.dropLast ++ node.needs), found ++ [node]) q := by
      rintro q (hq | ⟨n, hn, hq⟩)
      · rcases List.mem_cons.1 hq with rfl | hq
        · exact .inr ⟨node, List.mem_append_right _ (List.mem_singleton_self _), hpath⟩
        · exact .inl (List.mem_append_left _ hq)
      · exact .inr ⟨n, List.mem_append_left _ hn, hq⟩
    constructor
    · intro p hp hne
      rcases List.mem_append.1 hp with hp | hp
      · exact hs.waiting p (List.mem_cons_of_mem _ hp) hne
      · exact hneeded.of_mem hnode hp
    · intro n hn
      rcases List.mem_append.1 hn with hn | hn
      · exact hs.found n hn
      · rw [List.mem_singleton.1 hn, hpath]
        exact ⟨hneeded, hnode⟩
    · rw [List.map_append, List.map_singleton, List.nodup_append]
      refine ⟨hs.nodup, List.nodup_singleton _, ?_⟩
      rintro _ hp _ hp' rfl
      obtain ⟨n, hn, hn'⟩ := List.mem_map.1 hp
      exact hnew n hn (hn'.trans ((List.mem_singleton.1 hp').trans hpath))
    · exact fun p hp hne => hkeep p (hs.required p hp hne)
    · intro n hn q hq
      rcases List.mem_append.1 hn with hn | hn
      · exact hkeep q (hs.closed n hn q hq)
      · rw [List.mem_singleton.1 hn, hpath] at hq
        exact .inl (List.mem_append_right _ hq)

theorem Invariant.steps {s t : Search} (hs : Invariant mode scope required s)
    (h : Steps mode scope s t) : Invariant mode scope required t := by
  induction h with
  | refl => exact hs
  | tail _ hstep ih => exact ih.step hstep

/-! ## Finitely many paths -/

theorem Invariant.length_le {s : Search} (hs : Invariant mode scope required s)
    (hfin : {p | Needed mode scope required p}.Finite) : s.2.length ≤ hfin.toFinset.card := by
  have hsub : (s.2.map (·.path)).toFinset ⊆ hfin.toFinset := by
    intro p hp
    obtain ⟨n, hn, rfl⟩ := List.mem_map.1 (List.mem_toFinset.1 hp)
    exact hfin.mem_toFinset.2 (hs.found n hn).1
  have hcard := Finset.card_le_card hsub
  rwa [List.toFinset_card_of_nodup hs.nodup, List.length_map] at hcard

/-- Each step finds a node, of which there are only so many, or leaves one path less waiting. -/
theorem Invariant.close_ne_none {s : Search} (hs : Invariant mode scope required s)
    (hfin : {p | Needed mode scope required p}.Finite) : close mode scope s.1 s.2 ≠ none := by
  induction hk : hfin.toFinset.card - s.2.length using Nat.strong_induction_on generalizing s with
  | _ k ih =>
    obtain ⟨waiting, found⟩ := s
    -- between two found nodes the waiting paths get fewer
    induction waiting with
    | nil =>
      rw [close]
      exact Option.some_ne_none _
    | cons path waiting ihw =>
      cases hstep : closeStep mode scope path waiting found with
      | error e =>
        rw [close, hstep]
        exact Option.some_ne_none _
      | ok t =>
        have ht := hs.step (.take hstep)
        rw [close_eq_of_step (.take hstep)]
        rcases closeStep_ok hstep with ⟨rfl, -⟩ | ⟨node, -, -, rfl⟩
        · exact ihw ht hk
        · have hle := ht.length_le hfin
          rw [List.length_append, List.length_singleton] at hle
          refine ih _ ?_ ht rfl
          rw [List.length_append, List.length_singleton]
          dsimp only at hk
          omega

/-! ## Every path in its turn -/

/-- A path that waits is taken up after those before it. -/
theorem found_of_waiting {s : Search} {p : JoinPath} (hclose : close mode scope s.1 s.2 = none)
    (hp : p ∈ s.1) (hne : p ≠ []) :
    ∃ t, Steps mode scope s t ∧ ∃ n ∈ t.2, n.path = p := by
  obtain ⟨before, after, hs⟩ := List.append_of_mem hp
  clear hp
  obtain ⟨waiting, found⟩ := s
  dsimp only at hs
  subst hs
  -- each step takes up a path of those before, and appends behind `p` only
  induction before generalizing after found with
  | nil =>
    cases hstep : closeStep mode scope p after found with
    | error e =>
      rw [List.nil_append, close, hstep] at hclose
      cases hclose
    | ok t =>
      refine ⟨t, .single (.take hstep), ?_⟩
      rcases closeStep_ok hstep with ⟨rfl, hmet⟩ | ⟨node, hnode, -, rfl⟩
      · exact hmet hne
      · exact ⟨node, List.mem_append_right _ (List.mem_singleton_self _), hnode.path_eq⟩
  | cons first before ih =>
    cases hstep : closeStep mode scope first (before ++ p :: after) found with
    | error e =>
      rw [List.cons_append, close, hstep] at hclose
      cases hclose
    | ok t =>
      rw [List.cons_append, close_eq_of_step (.take hstep)] at hclose
      rcases closeStep_ok hstep with ⟨rfl, -⟩ | ⟨node, -, -, rfl⟩
      · obtain ⟨t, hsteps, hfound⟩ := ih _ _ hclose
        exact ⟨t, .head (.take hstep) hsteps, hfound⟩
      · rw [List.append_assoc, List.cons_append] at hclose
        obtain ⟨t, hsteps, hfound⟩ := ih _ _ hclose
        rw [List.append_assoc, List.cons_append] at hstep
        exact ⟨t, .head (.take hstep) hsteps, hfound⟩

theorem found_of_met {s : Search} {p : JoinPath} (hclose : close mode scope s.1 s.2 = none)
    (hp : Met s p) (hne : p ≠ []) : ∃ t, Steps mode scope s t ∧ ∃ n ∈ t.2, n.path = p := by
  rcases hp with hp | hp
  · exact found_of_waiting hclose hp hne
  · exact ⟨s, .refl, hp⟩

/-- As long as planning goes on, every needed path is found. -/
theorem Needed.found {p : JoinPath} (hp : Needed mode scope required p)
    (hclose : close mode scope required [] = none) :
    ∃ t, Steps mode scope (required, []) t ∧ ∃ n ∈ t.2, n.path = p := by
  -- a found path has all that it brings along waiting or found, so planning gets to it as well
  have hnext : ∀ {p q : JoinPath}, Needed mode scope required q →
      (∃ t, Steps mode scope (required, []) t ∧ ∃ n ∈ t.2, n.path = p) →
      (∀ n, Resolves mode scope p n → q ∈ JoinPath.starts p.dropLast ++ n.needs) →
      ∃ t, Steps mode scope (required, []) t ∧ ∃ n ∈ t.2, n.path = q := by
    rintro p q hq ⟨t, hsteps, n, hn, rfl⟩ hmem
    have ht := invariant_start.steps hsteps
    rw [close_eq_of_steps hsteps] at hclose
    have hmet := ht.closed n hn q (hmem n (ht.found n hn).2)
    obtain ⟨t', hsteps', hfound⟩ := found_of_met hclose hmet hq.ne_nil
    exact ⟨t', hsteps.trans hsteps', hfound⟩
  induction hp with
  | required h hne => exact found_of_waiting hclose h hne
  | start hp hq ih => exact hnext (.start hp hq) ih fun n _ => List.mem_append_left _ hq
  | need hp hnode hq ih =>
    refine hnext (.need hp hnode hq) ih fun n hn => List.mem_append_right _ ?_
    rwa [hn.unique hnode]

/-! ## When planning ends -/

/-- Where nothing waits every needed path was found. -/
theorem Invariant.covers {found : List JoinNode} {p : JoinPath}
    (hs : Invariant mode scope required ([], found)) (hp : Needed mode scope required p) :
    ∃ n ∈ found, n.path = p := by
  have hmet : ∀ q, Met ([], found) q → ∃ n ∈ found, n.path = q := fun q hq =>
    hq.resolve_left List.not_mem_nil
  induction hp with
  | required h hne => exact hmet _ (hs.required _ h hne)
  | start hp hq ih =>
    obtain ⟨n, hn, rfl⟩ := ih
    exact hmet _ (hs.closed n hn _ (List.mem_append_left _ hq))
  | need hp hnode hq ih =>
    obtain ⟨n, hn, rfl⟩ := ih
    rw [hnode.unique (hs.found n hn).2] at hq
    exact hmet _ (hs.closed n hn _ (List.mem_append_right _ hq))

theorem close_eq_none_iff : close mode scope required [] = none ↔
    {p | Needed mode scope required p}.Infinite ∧
      ∀ p, Needed mode scope required p → ∃ node, Resolves mode scope p node := by
  constructor
  · intro hclose
    refine ⟨fun hfin => invariant_start.close_ne_none hfin hclose, fun p hp => ?_⟩
    obtain ⟨t, hsteps, n, hn, rfl⟩ := hp.found hclose
    exact ⟨n, ((invariant_start.steps hsteps).found n hn).2⟩
  · rintro ⟨hinf, hresolves⟩
    by_contra hclose
    obtain ⟨r, hr⟩ := Option.ne_none_iff_exists'.1 hclose
    obtain ⟨t, hsteps, hends⟩ := (close_eq_some_iff (s := (required, []))).1 hr
    have ht := invariant_start.steps hsteps
    -- an end without an error has found all needed paths, which are then finitely many
    cases hends with
    | found found =>
      refine hinf ((List.finite_toSet (found.map (·.path))).subset fun p hp => ?_)
      obtain ⟨n, hn, rfl⟩ := ht.covers hp
      exact List.mem_map_of_mem hn
    | failed h =>
      obtain ⟨hne, hnode⟩ := closeStep_error h
      obtain ⟨node, hr⟩ := hresolves _ (ht.waiting _ List.mem_cons_self hne)
      exact hnode node hr

end

end JoinPlan

end Rollup
