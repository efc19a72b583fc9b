/-
The plan of a nested query beside that of the query without its metrics of two passes. Projections
that share an expansion in memory stand for metrics alike, so leaving out the metrics of two passes
leaves the other output columns as they are; and with no conditions on groups before there are none
afterwards. With that the results of both statements can be compared.
-/
import Rollup.Proofs.Compile.Planning
import Rollup.Proofs.Compile.TwoPass

namespace Rollup

section

variable {α β γ : Type}

/-- Lists side by side stay so when what stands side by side is kept or left out together. -/
theorem filter_beside {R : α → β → Prop} {as : List α} {bs : List β} (h : List.Forall₂ R as bs)
    {keep : α → Bool} {keep' : β → Bool} (hkeep : ∀ a ∈ as, ∀ b ∈ bs, R a b → keep a = keep' b) :
    List.Forall₂ R (as.filter keep) (bs.filter keep') := by
  induction h with
  | nil => exact .nil
  | @cons a b as bs hab _ ih =>
    have hrest := ih fun a ha b hb =>
      hkeep a (List.mem_cons_of_mem _ ha) b (List.mem_cons_of_mem _ hb)
    rw [List.filter_cons, List.filter_cons,
      hkeep a List.mem_cons_self b List.mem_cons_self hab]
    split
    · exact .cons hab hrest
    · exact hrest

/-- What stands beside a list is settled by what it says of each element. -/
theorem beside_unique {R : α → β → Prop} {S : α → β → Prop} {as : List α} {bs cs : List β}
    (h : List.Forall₂ R as bs) (h' : List.Forall₂ S as cs)
    (hunique : ∀ a ∈ as, ∀ b c, R a b → S a c → b = c) : bs = cs := by
  induction h generalizing cs with
  | nil => cases h'; rfl
  | @cons a b as bs hab _ ih =>
    cases h' with
    | cons hac hrest =>
      rw [hunique a List.mem_cons_self _ _ hab hac,
        ih hrest fun a ha => hunique a (List.mem_cons_of_mem _ ha)]

/-- Filtering changes no search whose hits are all kept. -/
theorem find?_filter_of_kept {keep p : α → Bool} {as : List α}
    (h : ∀ a ∈ as, p a = true → keep a = true) : (as.filter keep).find? p = as.find? p := by
  induction as with
  | nil => rfl
  | cons a as ih =>
    have hrest := ih fun b hb => h b (List.mem_cons_of_mem _ hb)
    rw [List.filter_cons, List.find?_cons]
    cases hp : p a with
    | true => rw [if_pos (h a List.mem_cons_self hp), List.find?_cons, hp]
    | false =>
      split
      · rw [List.find?_cons, hp, hrest]
      · exact hrest

end

/-! ## Roles -/

/-- Where a path leads, the grain and the arguments apart. -/
theorem locate_ok {m : Model} {root t : m.Member} {p : Path} {c : Column}
    (h : locate root p = .ok (t, c)) :
    followJoins root p.joins = .ok t ∧ t.1.column? p.column = some c := by
  unfold locate at h
  obtain ⟨t', ht, h⟩ := bind_ok h
  split at h
  · cases h
  · rename_i c' hc'
    dsimp only at h
    split at h
    · split at h
      · cases h
      · obtain ⟨_, -, h⟩ := bind_ok h
        cases h
        exact ⟨ht, hc'⟩
    · obtain ⟨_, -, h⟩ := bind_ok h
      cases h
      exact ⟨ht, hc'⟩

namespace Query

theorem assignAliases_go_ok {all : List Selected} {taken : List String} {ss : List Selected}
    {xs : List Projection} (h : assignAliases.go all taken ss = .ok xs) :
    ∀ x ∈ xs, ∃ s ∈ ss, x.path = s.path ∧ x.role = s.column.role := by
  induction ss generalizing taken xs with
  | nil =>
    cases h
    exact fun _ hx => by cases hx
  | cons s ss ih =>
    unfold assignAliases.go at h
    dsimp only at h
    split at h
    · cases h
    · obtain ⟨xs', hxs', h⟩ := bind_ok h
      cases h
      intro x hx
      rcases List.mem_cons.1 hx with rfl | hx
      · exact ⟨s, List.mem_cons_self, rfl, rfl⟩
      · obtain ⟨s', hs', hx⟩ := ih hxs' x hx
        exact ⟨s', List.mem_cons_of_mem _ hs', hx⟩

theorem lookUp_ok {m : Model} {root : m.Member} {s : Selection} {found : Selected}
    (h : lookUp root s = .ok found) :
    ∃ t, followJoins root found.path.joins = .ok t ∧
      t.1.column? found.path.column = some found.column := by
  obtain ⟨⟨t, c⟩, hlocate, h⟩ := bind_ok h
  cases h
  obtain ⟨ht, hc⟩ := locate_ok hlocate
  refine ⟨t, ?_⟩
  dsimp only
  split <;> exact ⟨ht, hc⟩

/-- The columns of a built query have the roles they are declared with. -/
theorem role_of_build {m : Model} {r : Request} {q : Query} (h : build m r = .ok q) :
    ∃ root, m.require q.table = .ok root ∧ ∀ x ∈ q.projections, ∀ t c,
      locate root x.path = .ok (t, c) → x.role = c.role := by
  unfold build at h
  obtain ⟨root, hroot, h⟩ := bind_ok h
  obtain ⟨_, -, h⟩ := bind_ok h
  split at h
  · cases h
  obtain ⟨selected, hselected, h⟩ := bind_ok h
  split at h
  · cases h
  obtain ⟨xs, hxs, h⟩ := bind_ok h
  obtain ⟨_, -, h⟩ := bind_ok h
  cases h
  refine ⟨root, by rw [JoinPlan.name_of_require hroot]; exact hroot, fun x hx t c hlocate => ?_⟩
  obtain ⟨s, hs, hpath, hrole⟩ := assignAliases_go_ok hxs x hx
  obtain ⟨y, -, hy⟩ := exists_beside (mapM_ok hselected).flip hs
  obtain ⟨t', ht', hc'⟩ := lookUp_ok hy
  obtain ⟨ht, hc⟩ := locate_ok hlocate
  rw [← hpath] at ht' hc'
  rw [ht, Except.ok.injEq] at ht'
  subst ht'
  rw [hc, Option.some.injEq] at hc'
  rw [hrole, ← hc']

end Query

/-! ## Conditions -/

namespace Placement

/-- Nothing is gathered in a clause that no part is placed in. -/
theorem gather_eq_none_iff {c : Clause} {parts : List (Clause × Filter)} :
    gather c parts = none ↔ ∀ part ∈ parts, part.1 ≠ c := by
  have hall : ∀ fs : List Filter, Filter.all? fs = none ↔ fs = [] := by
    intro fs
    cases fs <;> simp [Filter.all?]
  rw [gather, hall, List.map_eq_nil_iff, List.filter_eq_nil_iff]
  simp

section

variable {m : Model} {q q' : Query} {root : m.Member} {origin : Clause}
  (harguments : q'.arguments = q.arguments) (hdimensions : q'.dimensions = q.dimensions)
  (hmetrics : ∀ x ∈ q'.metrics, x ∈ q.metrics)

include harguments hdimensions hmetrics

/-- With fewer metrics a predicate on rows stays one. -/
theorem place_rows {t : Predicate} (h : place q root origin t = .ok .rows) :
    place q' root origin t = .ok .rows := by
  have hgrouping : q'.groupingProjection? t.column = q.groupingProjection? t.column := by
    rw [Query.groupingProjection?, hdimensions, ← Query.groupingProjection?]
  have hraw : checkRawMetric q' root t = checkRawMetric q root t := by
    rw [checkRawMetric, harguments, ← checkRawMetric]
  unfold place at h ⊢
  obtain ⟨⟨t', c⟩, hlocate, h⟩ := bind_ok h
  rw [hlocate, hgrouping, hraw]
  change (if c.isMetric = true then _ else _) = _
  dsimp only at h
  split
  · rename_i hmetric
    rw [if_pos hmetric] at h
    split at h
    · cases h
    · rename_i hfree
      have hfree' : (origin == .groups || (q'.metricProjection? t.column).isSome) = false := by
        simp only [Bool.or_eq_true, not_or, Option.isSome_iff_ne_none, not_not] at hfree
        have hnone : q'.metricProjection? t.column = none :=
          List.find?_eq_none.2 fun x hx => List.find?_eq_none.1 hfree.2 x (hmetrics x hx)
        simp [hnone, hfree.1]
      rw [hfree']
      exact h
  · rename_i hmetric
    rw [if_neg hmetric] at h
    exact h

theorem placePart_rows {part : Filter} (h : placePart q root origin part = .ok .rows) :
    placePart q' root origin part = .ok .rows := by
  unfold placePart at h ⊢
  obtain ⟨placed, hplaced, h⟩ := bind_ok h
  split at h
  · rename_i hrows
    have hplaced' : part.predicates.mapM (fun t => (place q' root origin t).map fun c => (t, c)) =
        .ok placed := by
      have hbeside := (List.forall₂_and_left _ _).2
        ⟨List.all_eq_true.1 hrows, (mapM_ok hplaced).flip⟩
      refine mapM_of_beside (hbeside.flip.imp fun t b hb => ?_)
      obtain ⟨hrow, hb⟩ := hb
      obtain ⟨c, hc, rfl⟩ := map_ok hb
      obtain rfl : c = .rows := by simpa using hrow
      rw [place_rows harguments hdimensions hmetrics hc]
      rfl
    rw [hplaced']
    exact if_pos hrows
  · obtain ⟨_, -, h⟩ := bind_ok h
    cases h

end

/-- With fewer metrics, but some, there still are no conditions on groups. -/
theorem groups_eq_none {m : Model} {q q' : Query} {p p' : Placement} (h : of m q = .ok p)
    (h' : of m q' = .ok p') (hfree : p.groups = none) (htable : q'.table = q.table)
    (hwhere : q'.whereFilter = q.whereFilter) (hhaving : q'.havingFilter = q.havingFilter)
    (harguments : q'.arguments = q.arguments) (hdimensions : q'.dimensions = q.dimensions)
    (hmetrics : ∀ x ∈ q'.metrics, x ∈ q.metrics) (hagg : q.isAggregated = true) :
    p'.groups = none := by
  obtain ⟨root, hroot, -, hcases⟩ := of_cases h
  obtain ⟨root', hroot', -, hcases'⟩ := of_cases h'
  rw [htable, hroot, Except.ok.injEq] at hroot'
  subst hroot'
  obtain ⟨-, fromRows, fromGroups, hrows, hgroups, rfl⟩ | ⟨hplain, -⟩ := hcases
  · obtain ⟨-, fromRows', fromGroups', hrows', hgroups', rfl⟩ | ⟨-, rfl⟩ := hcases'
    · have hall := gather_eq_none_iff.1 hfree
      -- what is on rows in the one is on rows in the other
      have hstays : ∀ {origin : Clause} {fs : List Filter} {parts parts' : List (Clause × Filter)},
          Placed q root origin fs parts → Placed q' root origin fs parts' →
          (∀ part ∈ parts, part.1 ≠ .groups) → ∀ part' ∈ parts', part'.1 ≠ .groups := by
        intro origin fs parts parts' hparts hparts' hnone part' hpart'
        obtain ⟨part, hpart, hplaced', -⟩ := exists_beside (List.Forall₂.flip hparts') hpart'
        obtain ⟨placed, hmem, hplaced, -⟩ := exists_beside hparts hpart
        have hclause : placed.1 = .rows := by
          cases hc : placed.1 with
          | rows => rfl
          | groups => exact absurd hc (hnone placed hmem)
        rw [hclause] at hplaced
        rw [placePart_rows harguments hdimensions hmetrics hplaced, Except.ok.injEq] at hplaced'
        rw [← hplaced']
        decide
      rw [hwhere] at hrows'
      rw [hhaving] at hgroups'
      refine gather_eq_none_iff.2 fun part hpart => ?_
      rcases List.mem_append.1 hpart with hpart | hpart
      · exact hstays hrows hrows' (fun x hx => hall x (List.mem_append_left _ hx)) part hpart
      · exact hstays hgroups hgroups' (fun x hx => hall x (List.mem_append_right _ hx)) part hpart
    · rfl
  · rw [hagg] at hplain
    cases hplain

end Placement

/-! ## Output columns -/

theorem Projection.isTwoPass_output {d : Dialect} {x y : Projection} {c : Column} {sql : String}
    (h : x.role = y.role) : (x.output d c sql).isTwoPass = (y.output d c sql).isTwoPass := by
  unfold Output.isTwoPass Projection.output
  rw [h]
  cases y.role <;> rfl

namespace Plan

variable {m : Model} {d : Dialect} {q : Query} {root : m.Member} {p p' : Plan}

namespace Drawn

theorem names_nodup (h : Drawn d q root p) : (p.outputs.map (·.column.name)).Nodup := by
  obtain ⟨memo, hshows⟩ := h.shows
  have hlabels : p.outputs.map (·.column.label) =
      (p.outputs.map (·.column.name)).map (Sql.fitName d) := by
    rw [List.map_map]
    refine List.map_congr_left fun o ho => ?_
    obtain ⟨x, -, c, sql, rfl⟩ := h.exists_projection ho
    rfl
  have hnodup := hshows.labels.1
  rw [hlabels] at hnodup
  exact hnodup.of_map _

/-- A projection is kept exactly when its output column does not need two passes. -/
theorem keeps_eq (h : Drawn d q root p) {x : Projection} {o : Output} (ho : o ∈ p.outputs)
    (hname : o.column.name = x.name) : p.keeps x = !o.isTwoPass := by
  unfold keeps
  congr 1
  rw [Bool.eq_iff_iff, List.any_eq_true]
  constructor
  · rintro ⟨o', ho', htwo⟩
    simp only [Bool.and_eq_true, beq_iff_eq] at htwo
    rw [← List.inj_on_of_nodup_map h.names_nodup ho' ho (htwo.2.trans hname.symm)]
    exact htwo.1
  · intro htwo
    exact ⟨o, ho, by simp [htwo, hname]⟩

variable (hroles : ∀ x ∈ q.projections, ∀ t c, locate root x.path = .ok (t, c) → x.role = c.role)

include hroles

/-- Projections that share an expansion are kept together. -/
theorem keeps_eq_of_memoKey (h : Drawn d q root p) {x y : Projection} (hx : x ∈ q.projections)
    (hy : y ∈ q.projections)
    (hkey : y.memoKey (Scope.of root q.arguments) = x.memoKey (Scope.of root q.arguments)) :
    p.keeps y = p.keeps x := by
  obtain ⟨memo, hshows⟩ := h.shows
  obtain ⟨o, ho, t, c, f, hlocate, hlookup, rfl⟩ := exists_beside hshows.outputs hx
  obtain ⟨o', ho', t', c', f', hlocate', hlookup', rfl⟩ := exists_beside hshows.outputs hy
  rw [hkey, hlookup, Option.some.injEq] at hlookup'
  subst hlookup'
  -- the same place and the same name, so the same column
  obtain ⟨ht, hc⟩ := locate_ok hlocate
  obtain ⟨ht', hc'⟩ := locate_ok hlocate'
  simp only [Projection.memoKey, MemoKey.mk.injEq] at hkey
  obtain ⟨-, -, hjoins, hcolumn, -, -⟩ := hkey
  rw [hjoins, ht, Except.ok.injEq] at ht'
  subst ht'
  rw [hcolumn, hc, Option.some.injEq] at hc'
  subst hc'
  have hrole : y.role = x.role :=
    (hroles y hy _ _ hlocate').trans (hroles x hx _ _ hlocate).symm
  rw [h.keeps_eq ho rfl, h.keeps_eq ho' rfl, Projection.isTwoPass_output hrole]

/-- The output columns that are left are those of the plan without the metrics of two passes. -/
theorem outputs_singlePass (h : Drawn d q root p) (h' : Drawn d p.singlePass root p') :
    p'.outputs = p.outputs.filter (!·.isTwoPass) := by
  obtain ⟨memo, hshows⟩ := h.shows
  obtain ⟨memo', hshows'⟩ := h'.shows
  have hprojections : p.singlePass.projections = q.projections.filter p.keeps := by
    rw [singlePass, h.query]
  have hargs : p.singlePass.arguments = q.arguments := by rw [singlePass, h.query]
  rw [hprojections, hargs] at hshows'
  have houtputs : List.Forall₂ _ (q.projections.filter p.keeps)
      (p.outputs.filter (!·.isTwoPass)) := filter_beside hshows.outputs (by
    rintro x hx o ho ⟨t, c, f, -, -, rfl⟩
    exact h.keeps_eq ho rfl)
  refine beside_unique hshows'.outputs houtputs ?_
  rintro x hx o o' ⟨t, c, f, hlocate, hlookup, rfl⟩ ⟨t', c', f', hlocate', hlookup', rfl⟩
  obtain ⟨hx, hkeep⟩ := List.mem_filter.1 hx
  -- the first projection with the key of a kept one is kept
  have hfirst : firstExpansion ⟨d, false⟩ (Scope.of root q.arguments)
      (q.projections.filter p.keeps) (x.memoKey (Scope.of root q.arguments)) =
        firstExpansion ⟨d, false⟩ (Scope.of root q.arguments) q.projections
          (x.memoKey (Scope.of root q.arguments)) := by
    refine congrArg (Option.bind · _) (find?_filter_of_kept fun y hy hkey => ?_)
    rw [h.keeps_eq_of_memoKey hroles hx hy (by simpa using hkey), hkeep]
  rw [hshows'.lookup, hfirst, ← hshows.lookup, hlookup', Option.some.injEq] at hlookup
  rw [hlocate', Except.ok.injEq, Prod.mk.injEq] at hlocate
  rw [← hlookup, ← hlocate.2]

omit hroles

/-- Dimensions are kept. -/
theorem dimensions_singlePass (h : Drawn d q root p) : p.singlePass.dimensions = q.dimensions := by
  obtain ⟨memo, hshows⟩ := h.shows
  rw [Query.dimensions, Query.dimensions, singlePass, h.query, List.filter_filter]
  refine List.filter_congr fun x hx => ?_
  cases hrole : x.role.isDimension with
  | false => rfl
  | true =>
    obtain ⟨o, ho, t, c, f, -, -, rfl⟩ := exists_beside hshows.outputs hx
    have hmetric : x.role ≠ .metric := by simpa [Role.isDimension] using hrole
    rw [h.keeps_eq ho rfl, Output.isTwoPass, Projection.content_output_dimension hmetric]
    rfl

end Drawn

theorem nested_of_isTwoPass (htwo : ∃ o ∈ p.outputs, o.isTwoPass = true) : p.nested = true := by
  obtain ⟨o, ho, hpass⟩ := htwo
  unfold Output.isTwoPass at hpass
  split at hpass
  · cases hpass
  · rename_i s hs
    exact List.any_eq_true.2
      ⟨s, List.mem_append_left _ (mem_projectedMetrics.2 ⟨o, ho, hs⟩), hpass⟩

/-- The plan of what is left for a single pass of a query without conditions on groups. -/
theorem singlePass_of_build {r : Request} (hq : Query.build m r = .ok q) (hp : build m d q = .ok p)
    (hp' : build m d p.singlePass = .ok p') (hone : p.singlePass.isAggregated = true)
    (hfree : p.filters.groups = none) :
    p'.query = p.singlePass ∧ p'.nested = false ∧ p'.filters.groups = none ∧
      p'.outputs = p.outputs.filter (!·.isTwoPass) := by
  obtain ⟨root, hroot, hroles⟩ := Query.role_of_build hq
  obtain ⟨root₁, hroot₁, hdrawn⟩ := build_drawn hp
  obtain ⟨root₂, hroot₂, hdrawn'⟩ := build_drawn hp'
  rw [hroot, Except.ok.injEq] at hroot₁
  subst hroot₁
  have htable : p.singlePass.table = q.table := by rw [singlePass, hdrawn.query]
  rw [htable, hroot, Except.ok.injEq] at hroot₂
  subst hroot₂
  have hagg : q.isAggregated = true := by
    obtain ⟨x, hx, hrole⟩ := List.any_eq_true.1 hone
    rw [singlePass, hdrawn.query] at hx
    exact List.any_eq_true.2 ⟨x, (List.mem_filter.1 hx).1, hrole⟩
  have hmetrics : ∀ x ∈ p.singlePass.metrics, x ∈ q.metrics := by
    intro x hx
    rw [Query.metrics, singlePass, hdrawn.query, List.mem_filter] at hx
    exact List.mem_filter.2 ⟨(List.mem_filter.1 hx.1).1, hx.2⟩
  have houtputs := hdrawn.outputs_singlePass hroles hdrawn'
  have hfree' : p'.filters.groups = none :=
    Placement.groups_eq_none (build_ok hp).2 (build_ok hp').2 hfree htable
      (by rw [singlePass, hdrawn.query]) (by rw [singlePass, hdrawn.query])
      (by rw [singlePass, hdrawn.query]) hdrawn.dimensions_singlePass hmetrics hagg
  refine ⟨hdrawn'.query, List.any_eq_false.2 fun s hs => ?_, hfree', houtputs⟩
  rw [metrics, hdrawn'.hidden hfree', List.append_nil] at hs
  obtain ⟨o, ho, hcontent⟩ := mem_projectedMetrics.1 hs
  rw [houtputs, List.mem_filter] at ho
  simpa [Output.isTwoPass, hcontent] using ho.2

/-- A nested query without conditions on groups, and what is left of it for a single pass. -/
theorem splits_of_build {r : Request} (hq : Query.build m r = .ok q) (hp : build m d q = .ok p)
    (hp' : build m d p.singlePass = .ok p') (hdims : q.dimensions ≠ [])
    (htwo : ∃ o ∈ p.outputs, o.isTwoPass = true) (hone : p.singlePass.isAggregated = true)
    (hfree : p.filters.groups = none) : Splits p p' := by
  obtain ⟨root, -, hdrawn⟩ := build_drawn hp
  obtain ⟨hquery, hnested', hfree', houtputs⟩ := singlePass_of_build hq hp hp' hone hfree
  have hnested := nested_of_isTwoPass htwo
  obtain ⟨memo, hshows⟩ := hdrawn.shows
  exact {
    nested := hnested
    dimensions := hdrawn.dimensions_ne_nil hdims
    nests := hdrawn.nests hnested
    labels := hshows.labels.1
    names := hdrawn.names_nodup
    free := hfree
    nested' := hnested'
    aggregated' := by rw [hquery, hone]
    outputs' := houtputs
    free' := hfree'
    dialect' := by rw [(build_ok hp').1, (build_ok hp).1]
    sorting' := by rw [hquery, singlePass]
    pagination' := by rw [hquery, singlePass] }

end Plan

open Sql

/-- Leaving out the metrics that need two passes changes nothing about the others: the records of
the nested main statement hold, under the labels that are left, the records of the single pass, each
as often, and what the statements may return as a page of ordered records corresponds in the same
way. -/
theorem nested_records_perm {m : Model} {d : Dialect} {r : Request} {q : Query} {p p' : Plan}
    {main main' : Select} {params params' : List Operand} (hq : Query.build m r = .ok q)
    (hp : Plan.build m d q = .ok p) (hp' : Plan.build m d p.singlePass = .ok p')
    (hdims : q.dimensions ≠ []) (htwo : ∃ o ∈ p.outputs, o.isTwoPass = true)
    (hone : p.singlePass.isAggregated = true) (hfree : p.filters.groups = none)
    (hlabels : ((p.innerSelect {}).items.map (·.label)).Nodup)
    (hmain : p.main.run [] = .ok (main, params)) (hmain' : p'.main.run [] = .ok (main', params'))
    {V : Type} [LinearOrder V] (db : Database V) (bag : List (SourceRow V)) :
    let kept := fun r : Record V => r.only (p'.outputs.map (·.column.label))
    ((main.records db bag).map kept).Perm (main'.records db bag) ∧
      ∀ out', main'.Returns db bag out' ↔ ∃ out, main.Returns db bag out ∧ out' = out.map kept := by
  intro kept
  have h := Plan.splits_of_build hq hp hp' hdims htwo hone hfree
  refine ⟨?_, Plan.returns_iff h hmain hmain' hlabels⟩
  have hperm : List.Perm _ (main'.entries db bag) := Plan.entries_perm h hmain hmain' hlabels
  replace hperm := hperm.map Prod.fst
  rw [List.map_map] at hperm
  rw [Select.records, Select.records, List.map_map]
  exact hperm

/-- Teams, the points they make in the games of a season, and the most they made in a season. -/
def games : Model where
  tables := [
    { name := "games"
      source := .physical none "games"
      columns := [
        { name := "team", formula := "\x7b\x7b$team\x7d\x7d", kind := .dimension },
        { name := "season", formula := "\x7b\x7b$season\x7d\x7d", kind := .dimension },
        { name := "average", formula := "\x7b\x7b$points\x7d\x7d"
          kind := .metric (some .avg) [] },
        { name := "record", formula := "SUM(\x7b\x7b$points\x7d\x7d)"
          kind := .metric (some .max) [{ column := "season" }] }] }]

/-- The columns asked for of each team. -/
def teamColumns (metrics : List String) : List Projection :=
  ⟨{ column := "team" }, .dimension, "team"⟩ ::
    metrics.map fun name => ⟨{ column := name }, .metric, name⟩

/-- Some metrics of each team. -/
def teamQuery (metrics : List String) : Query where
  table := "games"
  arguments := .empty
  projections := teamColumns metrics
  whereFilter := none
  havingFilter := none
  sorting := [⟨"average", .desc⟩]
  pagination := some { limit := some 10 }
  bypassCache := false

/-- Numbers with the sum of points. -/
def pointSums : Database ℚ where
  __ := Database.numbers
  aggregates := (· == "SUM(\"games\".\"points\")")
  formula e g := match e with
    | .raw sql =>
      if sql = "1.0" then some 1
      else Database.numbers.sum (g.map (· (.raw "\"games\".\"points\"")))
    | _ => none
  formula_one := fun _ => rfl

/-- A plan of such a query with properties that its draft shows. -/
theorem build_teamQuery (metrics : List String) (P : Plan → Bool)
    (hfilters : Placement.of games (teamQuery metrics) = .ok {})
    (h : ((Plan.draft .sqlite (teamQuery metrics)
      (⟨games.tables.head (by decide), by decide⟩ : games.Member) {}).run' []).map
        (fun r => (r.2, P { r.1 with joins := [] })) = .ok ([], true)) :
    ∃ p, Plan.build games .sqlite (teamQuery metrics) = .ok p ∧ P p = true :=
  Plan.build_shown P hfilters rfl h

theorem run_main_of_isSome {p : Plan} (h : (p.main.run []).toOption.isSome = true) :
    ∃ main params, p.main.run [] = .ok (main, params) := by
  obtain ⟨⟨main, params⟩, hrun⟩ := Option.isSome_iff_exists.1 h
  exact ⟨main, params, ok_of_toOption hrun⟩

/-- The average of the points is the same beside the record and without it. -/
theorem nested_records_perm_teams :
    ∃ r p p' main main' params params',
      Query.build games r = .ok (teamQuery ["average", "record"]) ∧
      Plan.build games .sqlite (teamQuery ["average", "record"]) = .ok p ∧
      p.singlePass = teamQuery ["average"] ∧
      Plan.build games .sqlite p.singlePass = .ok p' ∧
      p.main.run [] = .ok (main, params) ∧ p'.main.run [] = .ok (main', params') ∧
      ∀ bag : List (SourceRow ℚ),
        ((main.records pointSums bag).map fun r => r.only ["team", "average"]).Perm
          (main'.records pointSums bag) := by
  let r : Request := {
    table := "games"
    select := [⟨{ column := "team" }, none⟩, ⟨{ column := "average" }, none⟩,
      ⟨{ column := "record" }, none⟩]
    orderBy := [⟨"average", .desc⟩]
    pagination := some { limit := some 10 } }
  have hq : Query.build games r = .ok (teamQuery ["average", "record"]) := by decide +kernel
  let shown (p : Plan) : Bool :=
    p.outputs.any (·.isTwoPass) && p.singlePass = teamQuery ["average"] &&
      p.filters.groups.isNone && decide ((p.innerSelect {}).items.map (·.label)).Nodup &&
      (p.main.run []).toOption.isSome
  obtain ⟨p, hp, hshown⟩ := build_teamQuery ["average", "record"] shown
    (by decide +kernel) (by decide +kernel)
  simp only [shown, Bool.and_eq_true, decide_eq_true_eq, List.any_eq_true,
    Option.isNone_iff_eq_none] at hshown
  obtain ⟨⟨⟨⟨htwo, hsingle⟩, hfree⟩, hlabels⟩, hmain⟩ := hshown
  obtain ⟨p', hp', hshown'⟩ := build_teamQuery ["average"]
    (fun p => p.outputs.map (·.column.label) == ["team", "average"] &&
      (p.main.run []).toOption.isSome) (by decide +kernel) (by decide +kernel)
  simp only [Bool.and_eq_true, beq_iff_eq] at hshown'
  obtain ⟨hlabels', hmain'⟩ := hshown'
  rw [← hsingle] at hp'
  obtain ⟨main, params, hmain⟩ := run_main_of_isSome hmain
  obtain ⟨main', params', hmain'⟩ := run_main_of_isSome hmain'
  refine ⟨r, p, p', main, main', params, params', hq, hp, hsingle, hp', hmain, hmain',
    fun bag => ?_⟩
  have hperm := (nested_records_perm hq hp hp' (by decide) htwo (by rw [hsingle]; decide) hfree
    hlabels hmain hmain' pointSums bag).1
  rwa [hlabels'] at hperm

end Rollup
