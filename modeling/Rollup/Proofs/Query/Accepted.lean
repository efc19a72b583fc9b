/-
What accepted queries ask for. Every value that a query gives for an argument, of its table or of a
column that it names, was checked against a declaration of that argument.
-/
import Rollup.Proofs.Compile.SinglePass
import Rollup.Proofs.Expansion.Depth

namespace Rollup

open Expansion (Checked)

theorem check_of_checkArgument {owner name value : String} {undeclared : ArgumentFault}
    {declared : Option Parameter}
    (h : checkArgument owner name value undeclared declared = .ok ()) :
    ∃ p, declared = some p ∧ p.check value = .ok () := by
  cases declared with
  | none => cases h
  | some p =>
    refine ⟨p, rfl, ?_⟩
    have hchecked : (p.check value).mapError
        (fun fault => CompileError.invalidArgument owner name (.value fault)) = .ok () := h
    cases hcheck : p.check value with
    | ok _ => rfl
    | error fault =>
      rw [hcheck] at hchecked
      cases hchecked

/-- Values that were checked one by one, each against the first declaration of its name. -/
theorem checked_of_checkArguments {owner : String} {undeclared : ArgumentFault}
    {ps : List Parameter} {given : Arguments}
    (h : (given.entries.forM fun (name, value) =>
      checkArgument owner name value undeclared (ps.find? (·.name == name))) = .ok ()) :
    Checked ps given := by
  intro e he
  obtain ⟨p, hp, hcheck⟩ := check_of_checkArgument (forM_ok h e he)
  exact ⟨p, List.mem_of_find?_eq_some hp, by simpa using List.find?_some hp, hcheck⟩

/-- The default values of a table are defaults of its arguments. -/
theorem Table.default_of_mem_defaults {t : Table} {e : String × String}
    (h : e ∈ t.defaults.entries) : ∃ p ∈ t.parameters, p.name = e.1 ∧ p.default = some e.2 := by
  have hdefault : e ∈ t.parameters.filterMap fun p => p.default.map fun v => (p.name, v) :=
    (Arguments.mem_foldl_insert h).resolve_left List.not_mem_nil
  obtain ⟨p, hp, hvalue⟩ := List.mem_filterMap.1 hdefault
  obtain ⟨v, hv, rfl⟩ := Option.map_eq_some_iff.1 hvalue
  exact ⟨p, hp, rfl, hv⟩

variable {m : Model}

/-- The values that a path gives for the arguments of the column it leads to are checked. -/
theorem checked_of_locate {root t : m.Member} {x : Path} {c : Column}
    (h : locate root x = .ok (t, c)) : Checked c.parameters x.arguments := by
  unfold locate at h
  obtain ⟨t', -, h⟩ := bind_ok h
  split at h
  · cases h
  dsimp only at h
  split at h
  · split at h
    · cases h
    · obtain ⟨_, harguments, h⟩ := bind_ok h
      cases h
      exact checked_of_checkArguments harguments
  · obtain ⟨_, harguments, h⟩ := bind_ok h
    cases h
    exact checked_of_checkArguments harguments

theorem Column.grains_of_isMetric {c : Column} (h : c.isMetric = true) : c.grains = [] := by
  obtain ⟨name, formula, valueType, values, parameters, kind⟩ := c
  cases kind with
  | metric => rfl
  | dimension => cases h
  | timeDimension => cases h

theorem Column.grains_of_not_isTime {c : Column} (h : c.isTime = false) : c.grains = [] := by
  obtain ⟨name, formula, valueType, values, parameters, kind⟩ := c
  cases kind with
  | metric => rfl
  | dimension => rfl
  | timeDimension => cases h

/-- A column that is offered in no grain is wanted at none. -/
theorem grain_of_grains_nil {root t : m.Member} {x : Path} {c : Column}
    (h : locate root x = .ok (t, c)) (hgrains : c.grains = []) : x.grain = none := by
  cases hgrain : x.grain with
  | none => rfl
  | some g =>
    have hnone : (c.grain? g).isNone = true := by
      rw [Column.grain?, hgrains]
      rfl
    unfold locate at h
    obtain ⟨t', -, h⟩ := bind_ok h
    rw [hgrain] at h
    split at h
    · cases h
    · dsimp only at h
      split at h
      · cases h
      · rename_i hsome
        obtain ⟨_, -, h⟩ := bind_ok h
        cases h
        exact (hsome hnone).elim

/-- A metric is wanted at no grain. -/
theorem grain_of_locate {root t : m.Member} {x : Path} {c : Column}
    (h : locate root x = .ok (t, c)) (hmetric : c.isMetric = true) : x.grain = none :=
  grain_of_grains_nil h (Column.grains_of_isMetric hmetric)

/-- A path leads from the root to a column, whatever the grain, and the values given for the column's
arguments and for those of the root are checked. -/
structure Accepted (scope : Scope m) (x : Path) : Prop where
  given : ∃ given, Checked scope.root.1.parameters given ∧ scope = Scope.of scope.root given
  leads : ∃ t c, followJoins scope.root x.joins = .ok t ∧ t.1.column? x.column = some c ∧
    Checked c.parameters x.arguments

theorem accepted_of_locate {root t : m.Member} {given : Arguments} {x : Path} {c : Column}
    (hgiven : Checked root.1.parameters given) (h : locate root x = .ok (t, c)) :
    Accepted (Scope.of root given) x := by
  obtain ⟨ht, hc⟩ := locate_ok h
  exact ⟨⟨given, hgiven, rfl⟩, t, c, ht, hc, checked_of_locate h⟩

namespace Query

/-- An accepted query gives its table checked values. -/
theorem checked_of_build {r : Request} {q : Query} (h : build m r = .ok q) :
    ∃ root, m.require q.table = .ok root ∧ Checked root.1.parameters q.arguments := by
  unfold build at h
  obtain ⟨root, hroot, h⟩ := bind_ok h
  obtain ⟨_, harguments, h⟩ := bind_ok h
  split at h
  · cases h
  obtain ⟨selected, -, h⟩ := bind_ok h
  split at h
  · cases h
  obtain ⟨xs, -, h⟩ := bind_ok h
  obtain ⟨_, -, h⟩ := bind_ok h
  cases h
  exact ⟨root, by rw [JoinPlan.name_of_require hroot]; exact hroot,
    checked_of_checkArguments harguments⟩

/-- What an accepted query selects or tests is accepted. -/
theorem accepted_of_build {r : Request} {q : Query} (h : build m r = .ok q) :
    ∃ root, m.require q.table = .ok root ∧
      (∀ x ∈ q.projections, Accepted (Scope.of root q.arguments) x.path) ∧
      ∀ f ∈ q.whereFilter.toList ++ q.havingFilter.toList, ∀ p ∈ f.predicates,
        Accepted (Scope.of root q.arguments) p.column := by
  obtain ⟨root', hroot', hgiven⟩ := checked_of_build h
  unfold build at h
  obtain ⟨root, hroot, h⟩ := bind_ok h
  obtain ⟨_, -, h⟩ := bind_ok h
  split at h
  · cases h
  obtain ⟨selected, hselected, h⟩ := bind_ok h
  split at h
  · cases h
  obtain ⟨xs, hxs, h⟩ := bind_ok h
  obtain ⟨_, hfilters, h⟩ := bind_ok h
  cases h
  dsimp only at hroot' hgiven ⊢
  rw [JoinPlan.name_of_require hroot, hroot, Except.ok.injEq] at hroot'
  subst hroot'
  refine ⟨root, by rw [JoinPlan.name_of_require hroot, hroot], fun x hx => ?_, fun f hf p hp => ?_⟩
  · obtain ⟨s, hs, hpath, -⟩ := assignAliases_go_ok hxs x hx
    obtain ⟨wanted, -, hwanted⟩ := exists_beside (mapM_ok hselected).flip hs
    obtain ⟨⟨t, c⟩, hlocate, hs⟩ := bind_ok hwanted
    cases hs
    obtain ⟨ht, hc⟩ := locate_ok hlocate
    -- filling in the grain leaves the rest of the path as it is
    have hchecked := checked_of_locate hlocate
    have hfilled : ∀ g, Accepted (Scope.of root r.arguments) { wanted.column with grain := g } :=
      fun _ => ⟨⟨_, hgiven, rfl⟩, t, c, ht, hc, hchecked⟩
    rw [hpath]
    dsimp only
    split
    · exact hfilled _
    · exact hfilled wanted.column.grain
  · obtain ⟨⟨t, c⟩, hlocate, -⟩ := map_ok (forM_ok (forM_ok hfilters f hf) p hp)
    exact accepted_of_locate hgiven hlocate

end Query

end Rollup
