/-
Rendering the conditions of a plan. The planner has looked at every predicate before: what a
condition on rows tests has been expanded, and what a condition on groups tests is a metric of the
plan or a dimension it groups by. So the statements of a plan end in an error only where the dialect
has no SQL for an operator, or where they are ordered by something they do not select; which of
these it is, and for which predicate or key, can be read off the plan.
-/
import Rollup.Proofs.Compile.Sources

namespace Rollup

/-! ## The error of a run -/

section

variable {ε α β : Type}

/-- The error that a computation ends in, if it does. -/
def failure? : Except ε α → Option ε
  | .error e => some e
  | .ok _ => none

theorem failure?_eq_some {x : Except ε α} {e : ε} : failure? x = some e ↔ x = .error e := by
  cases x <;> simp [failure?]

/-- The first step that fails ends the run. -/
theorem failure?_bind {x : Except ε α} {f : α → Except ε β} {first second : Option ε}
    (hx : failure? x = first) (hf : ∀ a, x = .ok a → failure? (f a) = second) :
    failure? (x >>= f) = first.or second := by
  subst hx
  cases x with
  | error e => rfl
  | ok a => exact hf a rfl

theorem failure?_run_bind {σ : Type} {x : StateT σ (Except ε) α} {f : α → StateT σ (Except ε) β}
    {s : σ} {first second : Option ε} (hx : failure? (x.run s) = first)
    (hf : ∀ a t, x.run s = .ok (a, t) → failure? ((f a).run t) = second) :
    failure? ((x >>= f).run s) = first.or second := by
  rw [StateT.run_bind]
  exact failure?_bind hx fun ⟨a, t⟩ h => hf a t h

/-- A last step that cannot fail. -/
theorem failure?_run_map {σ : Type} {x : StateT σ (Except ε) α} {f : α → StateT σ (Except ε) β}
    {s : σ} (hf : ∀ a t, x.run s = .ok (a, t) → failure? ((f a).run t) = none) :
    failure? ((x >>= f).run s) = failure? (x.run s) := by
  rw [failure?_run_bind rfl hf, Option.or_none]

theorem failure?_run_lift {σ : Type} {x : Except ε α} {s : σ} :
    failure? ((liftM x : StateT σ (Except ε) α).run s) = failure? x := by
  cases x <;> rfl

end

/-! ## Conditions -/

/-- Whether a dialect has the tests of collections. -/
def Dialect.hasCollections : Dialect → Bool
  | .duckdb | .postgres => true
  | _ => false

/-- A predicate that a dialect has no SQL for. -/
def Predicate.lacking (d : Dialect) (t : Predicate) : Bool :=
  t.op.needsCollection && !d.hasCollections

namespace Condition

variable {d : Dialect} {vs : List Operand}

/-- The error for the first of some predicates that the dialect has no SQL for. -/
def unwritten? (d : Dialect) (ts : List Predicate) : Option CompileError :=
  (ts.find? (·.lacking d)).map fun t => .unsupported d (.filter t.op)

theorem unwritten?_append (ts us : List Predicate) :
    unwritten? d (ts ++ us) = (unwritten? d ts).or (unwritten? d us) := by
  rw [unwritten?, List.find?_append]
  cases h : ts.find? (·.lacking d) <;> simp [unwritten?, h]

theorem failure?_bind_operand (v : Operand) : failure? ((bind v).run vs) = none := rfl

theorem failure?_mapM_bind (g : Operand → Operand) (ws : List Operand) :
    failure? ((ws.mapM fun v => bind (g v)).run vs) = none := by
  induction ws generalizing vs with
  | nil => rfl
  | cons w ws ih =>
    rw [List.mapM_cons]
    refine failure?_run_bind (failure?_bind_operand _) fun e t _ => ?_
    exact failure?_run_bind ih fun _ _ _ => rfl

theorem failure?_offered (op : Operator) (e? : Option Sql.Expr) :
    failure? ((offered d op e?).run vs) =
      if e?.isSome then none else some (.unsupported d (.filter op)) := by
  cases e? <;> rfl

theorem isSome_hasNone? (e : Sql.Expr) : (Sql.Expr.hasNone? d e).isSome = d.hasCollections := by
  cases d <;> rfl

theorem isSome_holds? (e v : Sql.Expr) : (Sql.Expr.holds? d e v).isSome = d.hasCollections := by
  cases d <;> rfl

/-- Only the tests of collections can be missing from a dialect. -/
theorem failure?_ofPredicate (column : Sql.Expr) (t : Predicate) :
    failure? ((ofPredicate d column t).run vs) = unwritten? d [t] := by
  have hcollection (h : t.op.needsCollection = true) : unwritten? d [t] =
      if d.hasCollections then none else some (.unsupported d (.filter t.op)) := by
    cases hd : d.hasCollections <;> simp [unwritten?, Predicate.lacking, h, hd]
  have hplain (h : t.op.needsCollection = false) : unwritten? d [t] = none := by
    simp [unwritten?, Predicate.lacking, h]
  obtain ⟨path, op, values⟩ := t
  unfold ofPredicate
  cases op with
  | compare c => exact hplain rfl
  | oneOf negated case =>
    exact (failure?_run_map fun _ _ _ => rfl).trans
      ((failure?_mapM_bind _ _).trans (hplain rfl).symm)
  | between negated => exact hplain rfl
  | find anchor case => exact hplain rfl
  | isNull negated => exact hplain rfl
  | isEmpty negated =>
    rw [hcollection rfl, ← isSome_hasNone? column]
    exact (failure?_run_map fun _ _ _ => rfl).trans (failure?_offered _ _)
  | hasMember negated =>
    rw [hcollection rfl]
    refine failure?_run_bind (failure?_bind_operand _) fun v t _ => ?_
    rw [← isSome_holds? column v]
    exact (failure?_run_map fun _ _ _ => rfl).trans (failure?_offered _ _)

variable {column : Predicate → Except CompileError Sql.Expr}

/-- Over the constructors of the filter: what its predicates test is known, and they are written from
left to right. -/
theorem failure?_operands {f : Filter} {ands : Bool}
    (hcolumn : ∀ t ∈ f.predicates, ∃ e, column t = .ok e) :
    failure? ((operands d column ands f).run vs) = unwritten? d f.predicates := by
  induction f generalizing ands vs with
  | and a b iha ihb =>
    obtain ⟨ha, hb⟩ := List.forall_mem_append.1 hcolumn
    rw [Filter.predicates, unwritten?_append]
    refine failure?_run_bind (iha ha) fun _ _ _ => ?_
    exact (failure?_run_map fun _ _ _ => rfl).trans (ihb hb)
  | or a b iha ihb =>
    obtain ⟨ha, hb⟩ := List.forall_mem_append.1 hcolumn
    rw [Filter.predicates, unwritten?_append]
    refine failure?_run_bind (iha ha) fun _ _ _ => ?_
    exact (failure?_run_map fun _ _ _ => rfl).trans (ihb hb)
  | not f ih => exact (failure?_run_map fun _ _ _ => rfl).trans (ih hcolumn)
  | test t =>
    obtain ⟨e, he⟩ := hcolumn t List.mem_cons_self
    have hlift : failure? ((liftM (column t) : Binding Sql.Expr).run vs) = none := by
      rw [failure?_run_lift, he]
      rfl
    refine failure?_run_bind hlift fun e _ _ => ?_
    exact (failure?_run_map fun _ _ _ => rfl).trans (failure?_ofPredicate e t)

end Condition

namespace Placement

/-! ## What the conditions on groups test -/

section

variable {m : Model} {q : Query} {root : m.Member} {origin : Clause}

/-- What the groups have a value for: a metric, or a dimension that they are formed by. -/
def OnGroups (q : Query) (root : m.Member) (t : Predicate) : Prop :=
  ∃ u c, locate root t.column = .ok (u, c) ∧
    (c.isMetric = true ∨ (q.groupingProjection? t.column).isSome = true)

/-- Only metrics are placed with the groups by themselves. -/
theorem onGroups_of_place {t : Predicate} (h : place q root origin t = .ok .groups) :
    OnGroups q root t := by
  obtain ⟨⟨u, c⟩, hlocate, h⟩ := bind_ok h
  refine ⟨u, c, hlocate, ?_⟩
  dsimp only at h
  split at h
  · exact .inl ‹_›
  · split at h <;> cases h

theorem onGroups_of_checkPromotable {t : Predicate} (h : checkPromotable q root t = .ok ()) :
    OnGroups q root t := by
  obtain ⟨⟨u, c⟩, hlocate, h⟩ := bind_ok h
  refine ⟨u, c, hlocate, ?_⟩
  dsimp only at h
  split at h
  · obtain ⟨_, hthrow, -⟩ := bind_ok h
    cases hthrow
  · split at h
    · cases h
    · rename_i hnone
      exact .inr (by simpa [Option.isSome_iff_ne_none] using hnone)

/-- A part that goes to the groups as a whole: its metrics were placed there, and the other
predicates could follow. -/
theorem onGroups_of_placePart {part : Filter} (h : placePart q root origin part = .ok .groups) :
    ∀ t ∈ part.predicates, OnGroups q root t := by
  obtain ⟨placed, hplaced, h⟩ := bind_ok h
  dsimp only at h
  split at h
  · cases h
  obtain ⟨⟨⟩, hcheck, -⟩ := bind_ok h
  intro t ht
  obtain ⟨⟨t', c⟩, hmem, hplace⟩ := exists_beside (mapM_ok hplaced) ht
  obtain ⟨c', hplace, heq⟩ := map_ok hplace
  cases heq
  cases c with
  | groups => exact onGroups_of_place hplace
  | rows => exact onGroups_of_checkPromotable (forM_ok hcheck _ hmem)

theorem Placed.onGroups {fs : List Filter} {parts : List (Clause × Filter)}
    (h : Placed q root origin fs parts) {part : Filter} (hpart : (Clause.groups, part) ∈ parts) :
    ∀ t ∈ part.predicates, OnGroups q root t := by
  obtain ⟨f, -, hplace, rfl⟩ := exists_beside h.flip hpart
  exact onGroups_of_placePart hplace

/-- Every predicate of the conditions on groups is about what the groups have a value for. -/
theorem onGroups_of_placed {placement : Placement} (h : Placement.of m q = .ok placement)
    (hroot : m.require q.table = .ok root) :
    ∀ t ∈ Filter.predicatesOf placement.groups, OnGroups q root t := by
  obtain ⟨root', hroot', -, ⟨-, fromRows, fromGroups, hrows, hgroups, rfl⟩ | ⟨-, rfl⟩⟩ :=
    of_cases h
  · cases hroot.symm.trans hroot'
    intro t ht
    dsimp only at ht
    obtain ⟨part, hpart, ht⟩ := (mem_predicatesOf_gather _).1 ht
    rcases List.mem_append.1 hpart with hpart | hpart
    · exact hrows.onGroups hpart t ht
    · exact hgroups.onGroups hpart t ht
  · exact fun t ht => (List.not_mem_nil ht).elim

end

end Placement

namespace Plan

/-! ## What the conditions of a plan test -/

section

variable {m : Model} {mode : Mode} {scope : Scope m} {memo memo' : Memo}

/-- A column that is known stays known. -/
theorem isSome_lookup_append {x : Path} {known : List (Path × String)} (more : List (Path × String))
    (h : (known.lookup x).isSome = true) : ((known ++ more).lookup x).isSome = true := by
  rw [List.lookup_append, Option.isSome_or, h, Bool.true_or]

/-- Every column that some predicates read is known after the run, besides those known before. -/
theorem rowColumnsOf_covers {known found : List (Path × String)} {ts : List Predicate}
    {joins : List JoinPath}
    (h : (rowColumnsOf mode scope known ts).run memo = .ok ((found, joins), memo')) :
    (∃ more, found = known ++ more) ∧ ∀ t ∈ ts, (found.lookup t.column).isSome = true := by
  induction ts generalizing known found joins memo with
  | nil =>
    cases h
    exact ⟨⟨[], (List.append_nil _).symm⟩, fun _ ht => (List.not_mem_nil ht).elim⟩
  | cons t ts ih =>
    unfold rowColumnsOf at h
    split at h
    · rename_i hknown
      obtain ⟨⟨more, rfl⟩, hall⟩ := ih h
      exact ⟨⟨more, rfl⟩, List.forall_mem_cons.2 ⟨isSome_lookup_append more hknown, hall⟩⟩
    · obtain ⟨f, _, -, h⟩ := run_bind_ok h
      obtain ⟨⟨found', more⟩, _, hrest, h⟩ := run_bind_ok h
      cases h
      obtain ⟨⟨more, rfl⟩, hall⟩ := ih hrest
      refine ⟨⟨_, List.append_assoc _ _ _⟩, List.forall_mem_cons.2 ⟨?_, hall⟩⟩
      refine isSome_lookup_append more ?_
      rw [List.lookup_append, Option.isSome_or]
      simp

/-- A plan knows the columns of its conditions on rows. -/
theorem rowColumns_cover {d : Dialect} {q : Query} {p : Plan} (h : build m d q = .ok p) :
    ∀ t ∈ Filter.predicatesOf p.filters.rows, (p.rowColumns.lookup t.column).isSome = true := by
  obtain ⟨filters, root, required, -, -, hp, -⟩ := build_drafted h
  obtain ⟨_, _, _, _, _, _, _, _, -, -, hrows, -, -⟩ := hp.runs
  rw [hp.filters_eq]
  exact (rowColumnsOf_covers hrows).2

theorem rowColumn_ok {d : Dialect} {q : Query} {p : Plan} (h : build m d q = .ok p) {t : Predicate}
    (ht : t ∈ Filter.predicatesOf p.filters.rows) : ∃ e, p.rowColumn t = .ok e := by
  obtain ⟨sql, hsql⟩ := Option.isSome_iff_exists.1 (rowColumns_cover h t ht)
  exact ⟨.raw sql, by rw [rowColumn, hsql]⟩

/-- Every projection has an output column of its name. -/
theorem Drawn.isSome_outputNamed? {d : Dialect} {q : Query} {root : m.Member} {p : Plan}
    (h : Drawn d q root p) {x : Projection} (hx : x ∈ q.projections) :
    (p.outputNamed? x.name).isSome = true := by
  obtain ⟨memo, hshows⟩ := h.shows
  obtain ⟨o, ho, -, c, f, -, -, rfl⟩ := exists_beside hshows.outputs hx
  exact List.find?_isSome.2 ⟨_, ho, beq_self_eq_true x.name⟩

/-- A metric that a condition on groups tests is one of the plan, and a dimension is found among its
output columns by the name of its projection. -/
theorem groupColumn_ok {d : Dialect} {q : Query} {p : Plan} (h : build m d q = .ok p)
    {t : Predicate} (ht : t ∈ Filter.predicatesOf p.filters.groups) :
    ∃ e, p.groupColumn t = .ok e := by
  obtain ⟨root, hroot, hdrawn⟩ := build_drawn h
  obtain ⟨root', _, hroot', hholds, -⟩ := build_holds h
  cases hroot.symm.trans hroot'
  obtain ⟨u, c, hlocate, hon⟩ := Placement.onGroups_of_placed (build_ok h).2 hroot t ht
  unfold groupColumn
  cases hfound : p.metrics.find? (·.path.sameColumn t.column) with
  | some s => exact ⟨_, rfl⟩
  | none =>
    have hgrouping : (q.groupingProjection? t.column).isSome = true := by
      refine hon.resolve_left fun hmetric => ?_
      obtain ⟨s, hs, hsame⟩ := hholds.tested t ht u c hlocate hmetric
      exact List.find?_eq_none.1 hfound s hs hsame
    obtain ⟨x, hx⟩ := Option.isSome_iff_exists.1 hgrouping
    have hmem : x ∈ q.projections := (List.mem_filter.1 (List.mem_of_find?_eq_some hx)).1
    obtain ⟨o, ho⟩ := Option.isSome_iff_exists.1 (hdrawn.isSome_outputNamed? hmem)
    rw [hdrawn.query, hx, Option.bind_some, ho]
    exact ⟨_, rfl⟩

end

/-! ## Statements -/

section

variable (p : Plan)

/-- The predicates of a plan in the order they are written. -/
def predicates : List Predicate :=
  Filter.predicatesOf p.filters.rows ++ Filter.predicatesOf p.filters.groups

/-- The error for the first predicate that the dialect has no SQL for. -/
def unwritten? : Option CompileError :=
  Condition.unwritten? p.dialect p.predicates

/-- The error for a key that is not projected. -/
def sortError (k : SortKey) : CompileError :=
  if k.key == "id" && p.query.isAggregated then .invalidSort k.key else .unprojectedSort k.key

/-- The error for the first sort key that is not projected. -/
def unsorted? : Option CompileError :=
  (p.query.sorting.find? fun k => (p.outputNamed? k.key).isNone).map p.sortError

variable {p} {vs : List Operand}

theorem failure?_condition {column : Predicate → Except CompileError Sql.Expr} {f? : Option Filter}
    (hcolumn : ∀ t ∈ Filter.predicatesOf f?, ∃ e, column t = .ok e) :
    failure? ((p.condition column f?).run vs) =
      Condition.unwritten? p.dialect (Filter.predicatesOf f?) := by
  cases f? with
  | none => rfl
  | some f =>
    rw [Filter.predicatesOf_some] at hcolumn ⊢
    exact (failure?_run_map fun _ _ _ => rfl).trans (Condition.failure?_operands hcolumn)

theorem failure?_orderOf (k : SortKey) :
    failure? (p.orderOf k) =
      if (p.outputNamed? k.key).isNone then some (p.sortError k) else none := by
  unfold orderOf sortError
  cases p.outputNamed? k.key with
  | some o => rfl
  | none =>
    dsimp only
    split <;> rfl

theorem failure?_order (ks : List SortKey) :
    failure? ((ks.mapM fun k => (p.orderOf k : Binding Sql.Order)).run vs) =
      (ks.find? fun k => (p.outputNamed? k.key).isNone).map p.sortError := by
  induction ks generalizing vs with
  | nil => rfl
  | cons k ks ih =>
    have hcons : ((k :: ks).find? fun k => (p.outputNamed? k.key).isNone).map p.sortError =
        (if (p.outputNamed? k.key).isNone then some (p.sortError k) else none).or
          ((ks.find? fun k => (p.outputNamed? k.key).isNone).map p.sortError) := by
      rw [List.find?_cons]
      cases (p.outputNamed? k.key).isNone <;> rfl
    rw [List.mapM_cons, hcons]
    refine failure?_run_bind (failure?_run_lift.trans (failure?_orderOf k)) fun _ _ _ => ?_
    exact (failure?_run_map fun _ _ _ => rfl).trans ih

/-- A plan knows what its conditions test. -/
structure Known (p : Plan) : Prop where
  rows : ∀ t ∈ Filter.predicatesOf p.filters.rows, ∃ e, p.rowColumn t = .ok e
  groups : ∀ t ∈ Filter.predicatesOf p.filters.groups, ∃ e, p.groupColumn t = .ok e

theorem known_of_build {m : Model} {d : Dialect} {q : Query} (h : build m d q = .ok p) :
    p.Known :=
  ⟨fun _ => rowColumn_ok h, fun _ => groupColumn_ok h⟩

namespace Known

theorem failure?_base (h : p.Known) :
    failure? (p.base.run vs) =
      Condition.unwritten? p.dialect (Filter.predicatesOf p.filters.rows) :=
  (failure?_run_map fun _ _ _ => rfl).trans (failure?_condition h.rows)

theorem failure?_rows (h : p.Known) : failure? (p.rows.run vs) = p.unwritten? := by
  rw [unwritten?, predicates, Condition.unwritten?_append]
  refine failure?_run_bind h.failure?_base fun _ _ _ => ?_
  exact (failure?_run_map fun _ _ _ => rfl).trans (failure?_condition h.groups)

theorem failure?_main (h : p.Known) :
    failure? (p.main.run vs) = p.unwritten?.or p.unsorted? := by
  refine failure?_run_bind h.failure?_rows fun _ _ _ => ?_
  exact (failure?_run_map fun _ _ _ => rfl).trans (failure?_order _)

/-- Rows that are counted directly have no conditions on groups. -/
theorem failure?_countSelect (h : p.Known) : failure? (p.countSelect.run vs) = p.unwritten? := by
  unfold countSelect
  split
  · rename_i hdirect
    simp only [countsDirectly, Bool.and_eq_true, Option.isNone_iff_eq_none] at hdirect
    refine (failure?_run_map fun _ _ _ => rfl).trans (h.failure?_base.trans ?_)
    rw [unwritten?, predicates, hdirect.1.2, Filter.predicatesOf_none, List.append_nil]
  · exact (failure?_run_map fun _ _ _ => rfl).trans h.failure?_rows

end Known

theorem failure?_statement (d : Dialect) (s : Binding Sql.Select) :
    failure? (statement d s) = failure? (s.run []) := by
  unfold statement
  cases s.run [] <;> rfl

theorem kind_unwritten? {e : CompileError} (h : p.unwritten? = some e) : e.kind = .unsupported := by
  obtain ⟨t, -, rfl⟩ := Option.map_eq_some_iff.1 h
  rfl

theorem kind_unsorted? {e : CompileError} (h : p.unsorted? = some e) :
    e.kind = .unprojectedSort ∨ e.kind = .invalidSort := by
  obtain ⟨k, -, rfl⟩ := Option.map_eq_some_iff.1 h
  unfold sortError
  split
  · exact .inr rfl
  · exact .inl rfl

end

/-- The conditions of a plan test only what it knows, in both clauses. Its statements fail exactly
for the first predicate that the dialect has no SQL for, the ordered one else for the first key that
is not projected; so they fail in these ways only. -/
theorem statement_error_iff_of_build {m : Model} {d : Dialect} {q : Query} {p : Plan}
    (h : build m d q = .ok p) :
    (∀ t ∈ Filter.predicatesOf p.filters.rows, ∃ e, p.rowColumn t = .ok e) ∧
    (∀ t ∈ Filter.predicatesOf p.filters.groups, ∃ e, p.groupColumn t = .ok e) ∧
    (∀ e, statement d p.main = .error e ↔ p.unwritten?.or p.unsorted? = some e) ∧
    (∀ e, statement d p.rows = .error e ↔ p.unwritten? = some e) ∧
    (∀ e, statement d p.countSelect = .error e ↔ p.unwritten? = some e) ∧
    ∀ e, p.unwritten?.or p.unsorted? = some e →
      e.kind ∈ [.unsupported, .unprojectedSort, .invalidSort] := by
  have hknown := known_of_build h
  have herror {s : Binding Sql.Select} {failed : Option CompileError}
      (hs : failure? (s.run []) = failed) (e : CompileError) :
      statement d s = .error e ↔ failed = some e := by
    rw [← failure?_eq_some, failure?_statement, hs]
  refine ⟨hknown.rows, hknown.groups, herror hknown.failure?_main, herror hknown.failure?_rows,
    herror hknown.failure?_countSelect, fun e he => ?_⟩
  rcases Option.or_eq_some_iff.1 he with he | ⟨-, he⟩
  · simp [kind_unwritten? he]
  · rcases kind_unsorted? he with he | he <;> simp [he]

/-! ## An example -/

/-- Books with the tags they carry. -/
def books : Model where
  tables := [
    { name := "books"
      source := .physical none "books"
      columns := [
        { name := "tags", formula := "\x7b\x7b$tags\x7d\x7d", kind := .dimension
          valueType := .collection },
        { name := "copies", formula := "\x7b\x7b$copies\x7d\x7d", kind := .metric (some .sum) [] }]
      joins := [] }]

/-- The tags with many copies and those that have a member, ordered by what is not selected. -/
def tagged : Query where
  table := "books"
  arguments := .empty
  projections := [
    ⟨{ column := "tags" }, .dimension, "labels"⟩, ⟨{ column := "copies" }, .metric, "copies"⟩]
  whereFilter := none
  havingFilter := some (.or
    (.test ⟨{ column := "copies" }, .compare .gt, [.int 10]⟩)
    (.test ⟨{ column := "tags" }, .hasMember false, [.text "new"]⟩))
  sorting := [⟨"copies", .asc⟩, ⟨"pages", .asc⟩]
  pagination := none
  bypassCache := false

/-- The test of the tags follows the metric to the groups and finds what they are selected as. Where
there are no collections it has no SQL; elsewhere the missing key is what is wrong. -/
theorem statement_error_iff_of_build_tagged :
    (∃ p, build books .mysql tagged = .ok p ∧
      (∃ e, p.groupColumn ⟨{ column := "tags" }, .hasMember false, [.text "new"]⟩ = .ok e) ∧
      statement .mysql p.main = .error (.unsupported .mysql (.filter (.hasMember false)))) ∧
    ∃ p, build books .duckdb tagged = .ok p ∧
      statement .duckdb p.main = .error (.unprojectedSort "pages") := by
  let root : books.Member := ⟨books.tables.head (by decide), by decide⟩
  have hfilters : Placement.of books tagged = .ok ⟨none, tagged.havingFilter⟩ := by decide +kernel
  have hroot : books.require tagged.table = .ok root := rfl
  obtain ⟨p, hp, hmysql⟩ := build_shown (d := .mysql)
    (fun p => (p.filters.groups == tagged.havingFilter) &&
      p.unwritten? == some (.unsupported .mysql (.filter (.hasMember false))))
    hfilters hroot (by decide +kernel)
  obtain ⟨p', hp', hduckdb⟩ := build_shown (d := .duckdb)
    (fun p => p.unwritten?.isNone && p.unsorted? == some (.unprojectedSort "pages"))
    hfilters hroot (by decide +kernel)
  simp only [Bool.and_eq_true, beq_iff_eq, Option.isNone_iff_eq_none] at hmysql hduckdb
  obtain ⟨-, hgroups, hmain, -⟩ := statement_error_iff_of_build hp
  obtain ⟨-, -, hmain', -⟩ := statement_error_iff_of_build hp'
  refine ⟨⟨p, hp, hgroups _ ?_, (hmain _).2 ?_⟩, p', hp', (hmain' _).2 ?_⟩
  · rw [hmysql.1]
    decide
  · rw [hmysql.2, Option.some_or]
  · rw [hduckdb.1, Option.none_or, hduckdb.2]

end Plan

end Rollup
