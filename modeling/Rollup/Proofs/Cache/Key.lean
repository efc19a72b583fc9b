/-
Cache keys are made from texts that tell queries apart. Every part of a query reads back from the
data it is written as, and every value from its text; so two queries have one text in two dialects
only if the dialects are the same and the queries differ in nothing but whether the cache is
bypassed.
-/
import Rollup.Cache.Key
import Rollup.Proofs.Json.Unambiguous
import Rollup.Proofs.Query.ReadBack

namespace Rollup

/-! ## Parts that are told by their data -/

theorem eq_of_readBack {α : Type} {read : Datum.Reader α} {write : α → Datum} {a b : α}
    (ha : read (write a) = some a) (hb : read (write b) = some b) (h : write a = write b) :
    a = b := by
  rw [h, hb] at ha
  exact (Option.some.inj ha).symm

theorem Role.name_injective : Function.Injective Role.name := by
  intro r s
  cases r <;> cases s <;> decide

theorem Dialect.name_injective : Function.Injective Dialect.name := by
  intro d e
  cases d <;> cases e <;> decide

/-- What may be missing reads back, where null stands for nothing else. -/
theorem nullable?_getD {α : Type} {read : Datum.Reader α} {write : α → Datum} {o : Option α}
    (hnull : ∀ a, write a ≠ .null) (h : ∀ a ∈ o, read (write a) = some a) :
    Datum.nullable? read ((o.map write).getD .null) = some o := by
  cases o with
  | none => rfl
  | some a =>
    rw [Option.map_some, Option.getD_some, Datum.nullable?, h a rfl]
    · rfl
    · exact hnull a

theorem getD_inj {α : Type} {read : Datum.Reader α} {write : α → Datum} {o o' : Option α}
    (hnull : ∀ a, write a ≠ .null) (h : ∀ a ∈ o, read (write a) = some a)
    (h' : ∀ a ∈ o', read (write a) = some a)
    (heq : (o.map write).getD .null = (o'.map write).getD .null) : o = o' := by
  have hread := nullable?_getD hnull h
  rw [heq, nullable?_getD hnull h'] at hread
  exact (Option.some.inj hread).symm

theorem Filter.getD_toDatum_inj {o o' : Option Filter}
    (h : ∀ x ∈ o.toList.flatMap reals, x.isFinite = true)
    (h' : ∀ x ∈ o'.toList.flatMap reals, x.isFinite = true)
    (heq : (o.map toDatum).getD .null = (o'.map toDatum).getD .null) : o = o' := by
  have hnull : ∀ f : Filter, f.toDatum ≠ .null := fun f => by cases f <;> simp [toDatum]
  have hread : ∀ {p : Option Filter}, (∀ x ∈ p.toList.flatMap reals, x.isFinite = true) →
      ∀ f ∈ p, ofDatum? f.toDatum = some f := by
    rintro p hp f rfl
    exact ofDatum?_toDatum (by simpa using hp)
  exact getD_inj hnull (hread h) (hread h') heq

namespace Query

theorem projectionDatum_injective : Function.Injective projectionDatum := by
  rintro ⟨path, role, name⟩ ⟨path', role', name'⟩ h
  simp only [projectionDatum, Datum.record.injEq, List.cons.injEq, Prod.mk.injEq, true_and,
    and_true, Datum.text.injEq] at h
  obtain ⟨hpath, hrole, rfl⟩ := h
  obtain rfl := eq_of_readBack path.ofDatum?_toDatum path'.ofDatum?_toDatum hpath
  obtain rfl := Role.name_injective hrole
  rfl

/-- The condition on rows and the condition on groups. -/
def filters (q : Query) : List Filter :=
  q.whereFilter.toList ++ q.havingFilter.toList

/-- The floating point numbers among the operands of the filters. -/
def reals (q : Query) : List Double :=
  q.filters.flatMap Filter.reals

theorem reals_filterDatum (o : Option Filter) :
    ((o.map Filter.toDatum).getD .null).reals = o.toList.flatMap Filter.reals := by
  cases o <;> simp [Filter.reals_toDatum]

/-- All floating point numbers in what is digested are operands. -/
theorem reals_identity (q : Query) (d : Dialect) : (q.identity d).reals = q.reals := by
  have hprojections : (q.projections.map projectionDatum).flatMap Datum.reals = [] := by
    simp [projectionDatum, Path.reals_toDatum]
  have hsorting : (q.sorting.map SortKey.toDatum).flatMap Datum.reals = [] := by
    simp [SortKey.toDatum]
  have hpagination : ((q.pagination.map Pagination.toDatum).getD .null).reals = [] := by
    cases q.pagination <;> simp [Pagination.reals_toDatum]
  simp [identity, toDatum, Arguments.reals_toDatum, hprojections, hsorting, hpagination,
    reals_filterDatum, reals, filters]

variable {q q' : Query}

/-- The data of a query leave out whether the cache is bypassed, and nothing else. -/
theorem toDatum_eq_iff (hfinite : ∀ x ∈ q.reals, x.isFinite = true)
    (hfinite' : ∀ x ∈ q'.reals, x.isFinite = true) :
    q.toDatum = q'.toDatum ↔ { q with bypassCache := q'.bypassCache } = q' := by
  refine ⟨fun h => ?_, fun h => h ▸ rfl⟩
  simp only [reals, filters, List.flatMap_append, List.forall_mem_append] at hfinite hfinite'
  obtain ⟨table, arguments, projections, whereFilter, havingFilter, sorting, pagination, _⟩ := q
  obtain ⟨table', arguments', projections', whereFilter', havingFilter', sorting', pagination',
    bypassed⟩ := q'
  simp only [toDatum, Datum.record.injEq, List.cons.injEq, Prod.mk.injEq, true_and, and_true,
    Datum.text.injEq, Datum.list.injEq] at h
  obtain ⟨rfl, harguments, hprojections, hwhere, hhaving, hsorting, hpagination⟩ := h
  obtain rfl := eq_of_readBack arguments.ofDatum?_toDatum arguments'.ofDatum?_toDatum harguments
  obtain rfl := List.map_injective_iff.2 projectionDatum_injective hprojections
  obtain rfl := Filter.getD_toDatum_inj hfinite.1 hfinite'.1 hwhere
  obtain rfl := Filter.getD_toDatum_inj hfinite.2 hfinite'.2 hhaving
  obtain rfl := List.map_injective_iff.2
    (fun s t => eq_of_readBack s.ofDatum?_toDatum t.ofDatum?_toDatum) hsorting
  obtain rfl : pagination = pagination' :=
    getD_inj (fun p => by simp [Pagination.toDatum]) (fun p _ => p.ofDatum?_toDatum)
      (fun p _ => p.ofDatum?_toDatum) hpagination
  rfl

/-- Where floating point operands are finite and have texts of their own, the texts that are digested
tell queries apart in all that a result may depend on. -/
theorem identity_text_eq_iff (q q' : Query) (d d' : Dialect)
    (hfinite : ∀ x ∈ q.reals ++ q'.reals, x.isFinite = true)
    (hprinter : Set.InjOn Double.Format.json.write {x | x ∈ q.reals ++ q'.reals}) :
    Json.write (q.identity d) = Json.write (q'.identity d') ↔
      d = d' ∧ { q with bypassCache := q'.bypassCache } = q' := by
  have hidentity : Json.write (q.identity d) = Json.write (q'.identity d') ↔
      q.identity d = q'.identity d' := by
    refine Json.write_inj hfinite hprinter (fun x hx => ?_) fun x hx => ?_
    · exact List.mem_append_left _ (reals_identity q d ▸ hx)
    · exact List.mem_append_right _ (reals_identity q' d' ▸ hx)
  obtain ⟨hq, hq'⟩ := List.forall_mem_append.1 hfinite
  rw [hidentity, ← toDatum_eq_iff hq hq', identity, identity]
  simp only [Datum.list.injEq, List.cons.injEq, Datum.text.injEq, and_true,
    Dialect.name_injective.eq_iff]
  exact and_comm

/-! ## Whole numbers are not rounded numbers -/

/-- The lifters whose weight is the one given, or is not zero. -/
def lifts (weight : Operand) : Query where
  table := "lifters"
  arguments := .empty
  projections := [⟨{ column := "name" }, .dimension, "name"⟩]
  whereFilter := some (.or (.test ⟨{ column := "weight" }, .compare .eq, [weight]⟩)
    (.not (.test ⟨{ column := "weight" }, .compare .eq, [.real .zero]⟩)))
  havingFilter := none
  sorting := [{ key := "name" }]
  pagination := some { limit := some 10 }
  bypassCache := false

theorem identity_text_lifts :
    (lifts (.real (.ofInt 100))).reals = [.ofInt 100, .zero] ∧
    (∀ x ∈ (lifts (.int 100)).reals ++ (lifts (.real (.ofInt 100))).reals, x.isFinite = true) ∧
    Set.InjOn Double.Format.json.write
      {x | x ∈ (lifts (.int 100)).reals ++ (lifts (.real (.ofInt 100))).reals} ∧
    Json.write ((lifts (.int 100)).identity .sqlite) ≠
      Json.write ((lifts (.real (.ofInt 100))).identity .sqlite) := by
  have hfinite : ∀ x ∈ (lifts (.int 100)).reals ++ (lifts (.real (.ofInt 100))).reals,
      x.isFinite = true := by decide +kernel
  have hprinter : ∀ x ∈ (lifts (.int 100)).reals ++ (lifts (.real (.ofInt 100))).reals,
      ∀ y ∈ (lifts (.int 100)).reals ++ (lifts (.real (.ofInt 100))).reals,
        Double.Format.json.write x = Double.Format.json.write y → x = y := by decide +kernel
  refine ⟨rfl, hfinite, fun x hx y hy => hprinter x hx y hy, fun h => ?_⟩
  have heq := ((identity_text_eq_iff _ _ _ _ hfinite fun x hx y hy => hprinter x hx y hy).1 h).2
  exact absurd heq (by decide +kernel)

end Query

end Rollup
