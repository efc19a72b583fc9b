/-
Requests read back from their texts. A text gives back everything of a request but the floating
point operands: one that is finite is read as the number its digits give, which need not be the
same, and one that is not finite becomes null. So a request comes back exactly when it nests no
deeper than the reader goes and its numbers survive their texts.
-/
import Rollup.Proofs.Json.KeptNumbers
import Rollup.Proofs.Json.ReadBack
import Rollup.Proofs.Query.ReadBack

namespace Rollup

/-! ## Parts without numbers -/

theorem Arguments.reread_toDatum (a : Arguments) : a.toDatum.reread = a.toDatum := by
  simp [toDatum]

theorem Path.reread_toDatum (p : Path) : p.toDatum.reread = p.toDatum := by
  unfold toDatum
  split_ifs <;> split <;> simp [Arguments.reread_toDatum]

namespace Selection

theorem reread_toDatum (s : Selection) : s.toDatum.reread = s.toDatum := by
  obtain ⟨column, name⟩ := s
  cases name <;> simp [toDatum, Path.reread_toDatum]

theorem ofDatum?_toDatum (s : Selection) : ofDatum? s.toDatum = some s := by
  have hfinite : s.toDatum.isFinite = true := by
    rw [Datum.isFinite_iff]
    obtain ⟨column, name⟩ := s
    cases name <;> simp [toDatum, Path.reals_toDatum]
  have hcolumn := s.column.ofDatum?_toDatum
  obtain ⟨column, name⟩ := s
  cases name <;>
    simp_all [toDatum, ofDatum?, Datum.recordFields?, Datum.Fields.required?,
      Datum.Fields.optional?, Datum.Fields.default?, List.lookup_cons, List.lookup_nil,
      Datum.text?, Datum.nullable?]

end Selection

theorem SortKey.reread_toDatum (s : SortKey) : s.toDatum.reread = s.toDatum := by
  simp [toDatum]

theorem Pagination.reread_toDatum (p : Pagination) : p.toDatum.reread = p.toDatum := by
  obtain ⟨offset, limit, wantTotal⟩ := p
  cases offset <;> cases limit <;> simp [toDatum, countMember, Datum.reread_word]

/-! ## Operands and filters -/

namespace Operand

/-- The operand that the text of an operand is read as. -/
def reread : Operand → Operand
  | real x => if x.isFinite then real x.reread else null
  | v => v

theorem reread_toDatum (v : Operand) : v.toDatum.reread = v.reread.toDatum := by
  cases v with
  | int n => exact Datum.reread_int64 n
  | real x =>
    rw [toDatum, Datum.reread, reread]
    split <;> rfl
  | _ => rfl

theorem reread_eq_iff {v : Operand} :
    v.reread = v ↔ ∀ x ∈ v.reals, x.isFinite = true ∧ x.reread = x := by
  cases v with
  | real x =>
    rw [reread]
    split <;> simp_all [reals]
  | _ => simp [reread, reals]

theorem ofDatum?_toDatum_ite (v : Operand) :
    ofDatum? v.toDatum = if ∀ x ∈ v.reals, x.isFinite = true then some v else none := by
  split
  case isTrue h => exact ofDatum?_toDatum h
  case isFalse h => cases v <;> simp_all [reals, toDatum, ofDatum?]

end Operand

namespace Predicate

/-- The predicate that the text of a predicate is read as. -/
def reread (p : Predicate) : Predicate :=
  { p with values := p.values.map Operand.reread }

theorem reread_toDatum (p : Predicate) : p.toDatum.reread = p.reread.toDatum := by
  unfold toDatum
  simp only [reread, List.isEmpty_map]
  split_ifs <;> simp [Path.reread_toDatum, Operand.reread_toDatum]

theorem reread_eq_iff {p : Predicate} :
    p.reread = p ↔ ∀ x ∈ p.reals, x.isFinite = true ∧ x.reread = x := by
  have hvalues : p.reread = p ↔ ∀ v ∈ p.values, v.reread = v := by
    rw [← map_eq_self_iff]
    obtain ⟨column, op, values⟩ := p
    simp [reread]
  simp only [hvalues, Operand.reread_eq_iff, reals, List.mem_flatMap]
  exact ⟨fun h x ⟨v, hv, hx⟩ => h v hv x hx, fun h v hv x hx => h x ⟨v, hv, hx⟩⟩

theorem ofDatum?_toDatum_of_not_finite {p : Predicate} (h : ¬∀ x ∈ p.reals, x.isFinite = true) :
    ofDatum? p.toDatum = none := by
  have hvalues : Datum.list? Operand.ofDatum? (.list (p.values.map Operand.toDatum)) = none := by
    rw [Datum.list?_map_ite fun v _ => v.ofDatum?_toDatum_ite, if_neg]
    refine fun hall => h fun x hx => ?_
    obtain ⟨v, hv, hx⟩ := List.mem_flatMap.1 hx
    exact hall v hv x hx
  have hcolumn := p.column.ofDatum?_toDatum
  have hop := p.op.named?_name
  obtain ⟨column, op, values⟩ := p
  cases values with
  | nil => simp [reals] at h
  | cons v rest =>
    simp_all [toDatum, ofDatum?, Datum.fields?, Datum.recordFields?, Datum.Fields.default?,
      Datum.Fields.required?, List.lookup_cons]

end Predicate

namespace Filter

/-- The filter that the text of a filter is read as. -/
def reread : Filter → Filter
  | and a b => .and a.reread b.reread
  | or a b => .or a.reread b.reread
  | not f => .not f.reread
  | test p => .test p.reread

theorem reals_and (a b : Filter) : (and a b).reals = a.reals ++ b.reals := by
  simp [reals, predicates]

theorem reals_or (a b : Filter) : (or a b).reals = a.reals ++ b.reals := by
  simp [reals, predicates]

theorem reals_not (f : Filter) : (not f).reals = f.reals := rfl

theorem reals_test (p : Predicate) : (test p).reals = p.reals := by
  simp [reals, predicates]

theorem reread_toDatum (f : Filter) : f.toDatum.reread = f.reread.toDatum := by
  induction f with
  | and a b iha ihb => simp [toDatum, reread, iha, ihb]
  | or a b iha ihb => simp [toDatum, reread, iha, ihb]
  | not f ih => simp [toDatum, reread, ih]
  | test p => simp [toDatum, reread, Predicate.reread_toDatum]

theorem reread_eq_iff {f : Filter} :
    f.reread = f ↔ ∀ x ∈ f.reals, x.isFinite = true ∧ x.reread = x := by
  induction f with
  | and a b iha ihb => rw [reread, and.injEq, iha, ihb, reals_and, List.forall_mem_append]
  | or a b iha ihb => rw [reread, or.injEq, iha, ihb, reals_or, List.forall_mem_append]
  | not f ih => rw [reread, not.injEq, ih, reals_not]
  | test p => rw [reread, test.injEq, Predicate.reread_eq_iff, reals_test]

theorem ofDatum?_toDatum_of_not_finite {f : Filter} (h : ¬∀ x ∈ f.reals, x.isFinite = true) :
    ofDatum? f.toDatum = none := by
  induction f with
  | and a b iha ihb =>
    rw [reals_and, List.forall_mem_append, not_and_or] at h
    rcases h with h | h
    · simp [toDatum, ofDatum?, iha h]
    · simp [toDatum, ofDatum?, ihb h]
  | or a b iha ihb =>
    rw [reals_or, List.forall_mem_append, not_and_or] at h
    rcases h with h | h
    · simp [toDatum, ofDatum?, iha h]
    · simp [toDatum, ofDatum?, ihb h]
  | not f ih =>
    rw [toDatum, ofDatum?_not, ih h]
    rfl
  | test p =>
    rw [reals_test] at h
    rw [toDatum, ofDatum?_test, Predicate.ofDatum?_toDatum_of_not_finite h]
    rfl

theorem map_reread_eq_iff {o : Option Filter} : o.map reread = o ↔
    ∀ x ∈ o.toList.flatMap reals, x.isFinite = true ∧ x.reread = x := by
  cases o <;> simp [reread_eq_iff]

/-- A filter that may be missing is read back if its numbers are finite, and else not at all. -/
theorem optional?_toDatum (fs : Datum.Fields) (name : String) (o : Option Filter)
    (hlookup : fs.lookup name = o.map toDatum) :
    fs.optional? name ofDatum? =
      if ∀ x ∈ o.toList.flatMap reals, x.isFinite = true then some o else none := by
  rw [Datum.Fields.optional?, Datum.Fields.default?, hlookup]
  cases o with
  | none => simp
  | some f =>
    have hnullable : Datum.nullable? ofDatum? f.toDatum = (ofDatum? f.toDatum).map some := by
      cases f <;> rfl
    simp only [Option.map_some, hnullable, Option.toList_some, List.flatMap_singleton]
    split
    case isTrue h => rw [ofDatum?_toDatum h, Option.map_some]
    case isFalse h => rw [ofDatum?_toDatum_of_not_finite h, Option.map_none]

end Filter

/-! ## Requests -/

namespace Request

variable (r : Request)

/-- The floating point numbers among the operands of its filters. -/
def reals : List Double :=
  (r.filter.toList ++ r.having.toList).flatMap Filter.reals

/-- The request that the text of a request is read as. -/
def reread : Request :=
  { r with filter := r.filter.map Filter.reread, having := r.having.map Filter.reread }

theorem reread_toDatum : r.toDatum.reread = r.reread.toDatum := by
  obtain ⟨table, arguments, select, filter, having, orderBy, pagination, bypassCache⟩ := r
  cases filter <;> cases having <;> cases pagination <;>
    simp [toDatum, reread, filterMember, Arguments.reread_toDatum, Selection.reread_toDatum,
      SortKey.reread_toDatum, Pagination.reread_toDatum, Filter.reread_toDatum]

theorem reread_eq_iff : r.reread = r ↔ ∀ x ∈ r.reals, x.isFinite = true ∧ x.reread = x := by
  rw [reals, List.flatMap_append, List.forall_mem_append, ← Filter.map_reread_eq_iff,
    ← Filter.map_reread_eq_iff]
  obtain ⟨table, arguments, select, filter, having, orderBy, pagination, bypassCache⟩ := r
  simp [reread]

/-- A request is read from its data, if its numbers are finite. -/
theorem ofDatum?_toDatum : ofDatum? r.toDatum =
    if ∀ x ∈ r.reals, x.isFinite = true then some r else none := by
  have harguments := r.arguments.ofDatum?_toDatum
  have hselect : Datum.list? Selection.ofDatum? (.list (r.select.map Selection.toDatum)) =
      some r.select := Datum.list?_map fun s _ => s.ofDatum?_toDatum
  have horder : Datum.list? SortKey.ofDatum? (.list (r.orderBy.map SortKey.toDatum)) =
      some r.orderBy := Datum.list?_map fun s _ => s.ofDatum?_toDatum
  rw [reals, List.flatMap_append]
  simp only [List.forall_mem_append]
  obtain ⟨table, arguments, select, filter, having, orderBy, pagination, bypassCache⟩ := r
  let ms : Datum.Fields :=
    [("table", .text table), ("table_arguments", arguments.toDatum),
      ("select", .list (select.map Selection.toDatum))] ++
    filterMember "filter" filter ++ filterMember "having" having ++
    [("order_by", .list (orderBy.map SortKey.toDatum))] ++
    (match pagination with
      | some p => [("pagination", p.toDatum)]
      | none => []) ++
    [("bypass_cache", .bool bypassCache)]
  have hdatum : toDatum ⟨table, arguments, select, filter, having, orderBy, pagination,
      bypassCache⟩ = .record ms := by
    cases pagination <;> rfl
  have hfields : Datum.fields? ["table", "table_arguments", "select", "filter", "having",
      "order_by", "pagination", "bypass_cache"] (.record ms) = some ms := by
    cases filter <;> cases having <;> cases pagination <;> rfl
  have hfilter := Filter.optional?_toDatum ms "filter" filter
    (by cases filter <;> cases having <;> cases pagination <;> rfl)
  have hhaving := Filter.optional?_toDatum ms "having" having
    (by cases filter <;> cases having <;> cases pagination <;> rfl)
  have htable : ms.required? "table" Datum.text? = some table := rfl
  have harguments' : ms.default? "table_arguments" .empty Arguments.ofDatum? = some arguments :=
    harguments
  have hselect' : ms.default? "select" [] (Datum.list? Selection.ofDatum?) = some select :=
    hselect
  have horder' : ms.default? "order_by" [] (Datum.list? SortKey.ofDatum?) = some orderBy := by
    cases filter <;> cases having <;> cases pagination <;> exact horder
  have hpagination : ms.optional? "pagination" Pagination.ofDatum? = some pagination := by
    refine Datum.Fields.optional?_of_lookup
      (show _ = pagination.map Pagination.toDatum from ?_) fun p => ?_
    · cases filter <;> cases having <;> cases pagination <;> rfl
    · rw [Datum.nullable?, p.ofDatum?_toDatum]
      · rfl
      · simp [Pagination.toDatum]
  have hbypass : ms.default? "bypass_cache" false Datum.bool? = some bypassCache := by
    cases filter <;> cases having <;> cases pagination <;> rfl
  rw [hdatum, ofDatum?, hfields]
  simp only [Option.bind_eq_bind, Option.bind_some, htable, harguments', hselect', hfilter, hhaving,
    horder', hpagination, hbypass, ite_and]
  split
  · split <;> rfl
  · rfl

theorem ofJson?_write : ofJson? (Json.write r.toDatum) =
    if r.toDatum.depth ≤ Json.maxDepth ∧ ∀ x ∈ r.reread.reals, x.isFinite = true then
      some r.reread
    else none := by
  rw [ofJson?, Json.read?_write, ite_and]
  split
  · rw [Option.bind_some, reread_toDatum, ofDatum?_toDatum]
  · rfl

theorem ofJson?_write_eq_some_iff : ofJson? (Json.write r.toDatum) = some r ↔
    r.toDatum.depth ≤ Json.maxDepth ∧ ∀ x ∈ r.reals, x.isFinite = true ∧ x.reread = x := by
  rw [ofJson?_write, ← reread_eq_iff, Option.ite_none_right_eq_some, Option.some.injEq, and_assoc]
  refine and_congr_right fun _ => ⟨And.right, fun h => ⟨?_, h⟩⟩
  rw [h]
  exact fun x hx => (r.reread_eq_iff.1 h x hx).1

/-- A request whose numbers have few digits comes back. -/
theorem ofJson?_write_of_fewDigits (hdepth : r.toDatum.depth ≤ Json.maxDepth)
    (h : ∀ x ∈ r.reals, x.FewDigits) : ofJson? (Json.write r.toDatum) = some r :=
  r.ofJson?_write_eq_some_iff.2 ⟨hdepth, fun x hx => ⟨(h x hx).finite, (h x hx).reread_eq⟩⟩

/-- A request is read from its text with its numbers read anew, when it nests no deeper than the
reader goes and they stay finite. So it comes back when they come back. -/
theorem ofJson?_write_iff :
    ofJson? (Json.write r.toDatum) =
      (if r.toDatum.depth ≤ Json.maxDepth ∧ ∀ x ∈ r.reread.reals, x.isFinite = true then
        some r.reread
      else none) ∧
    (ofJson? (Json.write r.toDatum) = some r ↔
      r.toDatum.depth ≤ Json.maxDepth ∧ ∀ x ∈ r.reals, x.isFinite = true ∧ x.reread = x) :=
  ⟨r.ofJson?_write, r.ofJson?_write_eq_some_iff⟩

/-- Asks for the drivers of the laps that are equal to a number. -/
def lapsEqual (x : Double) : Request where
  table := "laps"
  select := [{ column := { column := "driver" } }]
  filter := some (.test ⟨{ column := "driver" }, .compare .eq, [.real x]⟩)

theorem reread_lapsEqual {x : Double} (h : x.isFinite = true) :
    (lapsEqual x).reread = lapsEqual x.reread := by
  have hoperand : (Operand.real x).reread = .real x.reread := if_pos h
  simp [reread, lapsEqual, Filter.reread, Predicate.reread, hoperand]

/-- The number before `2 ^ 53` comes back as the one before it. -/
theorem ofJson?_write_lapsEqual :
    (lapsEqual (.ofInt 9007199254740991)).toDatum.depth ≤ Json.maxDepth ∧
    (∀ x ∈ (lapsEqual (.ofInt 9007199254740991)).reals, x.isFinite = true) ∧
    ofJson? (Json.write (lapsEqual (.ofInt 9007199254740991)).toDatum) =
      some (lapsEqual (.ofInt 9007199254740990)) ∧
    lapsEqual (.ofInt 9007199254740990) ≠ lapsEqual (.ofInt 9007199254740991) := by
  have hdepth : (lapsEqual (.ofInt 9007199254740991)).toDatum.depth ≤ Json.maxDepth := by
    decide +kernel
  have hreread : (lapsEqual (.ofInt 9007199254740991)).reread =
      lapsEqual (.ofInt 9007199254740990) := by
    rw [reread_lapsEqual (by decide +kernel)]
    exact congrArg lapsEqual (by decide +kernel)
  refine ⟨hdepth, by decide +kernel, ?_, by decide +kernel⟩
  rw [ofJson?_write, hreread, if_pos ⟨hdepth, by decide +kernel⟩]

end Request

end Rollup
