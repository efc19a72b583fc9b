/-
The parts of a query read back from the data they are written as: paths with what they leave out,
operands with their kinds, filters with all that is nested in them, keys and pagination.
-/
import Mathlib.Data.List.Basic
import Mathlib.Tactic.SplitIfs
import Rollup.Proofs.Datum.Reals
import Rollup.Proofs.Model.Arguments
import Rollup.Query.Request

namespace Rollup

/-! ## Lists and names -/

theorem map_eq_self_iff {α : Type} {f : α → α} {as : List α} :
    as.map f = as ↔ ∀ a ∈ as, f a = a := by
  have hmap : as.map f = as.map id ↔ ∀ a ∈ as, f a = a := List.map_inj_left
  rwa [List.map_id] at hmap

theorem Datum.list?_map {α : Type} {item : Datum.Reader α} {write : α → Datum} {as : List α}
    (h : ∀ a ∈ as, item (write a) = some a) :
    Datum.list? item (.list (as.map write)) = some as := by
  simp only [Datum.list?]
  induction as with
  | nil => rfl
  | cons a rest ih =>
    obtain ⟨ha, hrest⟩ := List.forall_mem_cons.1 h
    rw [List.map_cons, List.mapM_cons, ha, ih hrest]
    rfl

/-- Items that are read under a condition make a list that is read if all of them meet it. -/
theorem Datum.list?_map_ite {α β : Type} {item : Datum.Reader β} {write : α → Datum}
    {P : α → Prop} [DecidablePred P] {f : α → β} {as : List α}
    (h : ∀ a ∈ as, item (write a) = if P a then some (f a) else none) :
    Datum.list? item (.list (as.map write)) =
      if ∀ a ∈ as, P a then some (as.map f) else none := by
  simp only [Datum.list?]
  induction as with
  | nil => rfl
  | cons a rest ih =>
    obtain ⟨ha, hrest⟩ := List.forall_mem_cons.1 h
    rw [List.map_cons, List.mapM_cons, ha, ih hrest]
    simp only [List.forall_mem_cons, ite_and]
    split
    · split <;> rfl
    · rfl

theorem Grain.named?_name (g : Grain) :
    Datum.named? Grain.all Grain.name (.text g.name) = some g := by
  cases g <;> decide

theorem Operator.named?_name (op : Operator) :
    Datum.named? Operator.all Operator.name (.text op.name) = some op := by
  rcases op with c | ⟨n, c⟩ | n | ⟨a, c⟩ | n | n | n
  · cases c <;> decide
  · cases n <;> cases c <;> decide
  · cases n <;> decide
  · cases a <;> cases c <;> decide
  all_goals cases n <;> decide

theorem directionName_named? (d : Sql.Direction) :
    Datum.named? [.asc, .desc] directionName (.text (directionName d)) = some d := by
  cases d <;> decide

/-! ## Arguments and paths -/

namespace Arguments

theorem ofDatum?_toDatum (a : Arguments) : ofDatum? a.toDatum = some a := by
  have h : ∀ es : List (String × String),
      (es.map fun e => (e.1, Datum.text e.2)).mapM
        (fun m => (Datum.text? m.2).map fun v => (m.1, v)) = some es := by
    intro es
    induction es with
    | nil => rfl
    | cons e rest ih => rw [List.map_cons, List.mapM_cons, ih]; rfl
  have hread : ofDatum? a.toDatum = (some a.entries).bind fun es => some (ofList es) :=
    congrArg (Option.bind · fun es => some (ofList es)) (h a.entries)
  rw [hread, Option.bind_some, ofList_entries]

theorem isEmpty_iff {a : Arguments} : a.isEmpty = true ↔ a = empty := by
  obtain ⟨es, hes⟩ := a
  simp [isEmpty, empty]

theorem reals_toDatum (a : Arguments) : a.toDatum.reals = [] := by
  simp only [toDatum, Datum.reals_record, List.flatMap_map, Datum.reals_text]
  simp

end Arguments

namespace Path

theorem reals_toDatum (p : Path) : p.toDatum.reals = [] := by
  unfold toDatum
  split_ifs <;> split <;> simp [Arguments.reals_toDatum]

theorem ofDatum?_toDatum (p : Path) : ofDatum? p.toDatum = some p := by
  have hfinite : p.toDatum.isFinite = true := by
    rw [Datum.isFinite_iff, reals_toDatum]
    simp
  have hjoins : Datum.list? Datum.text? (.list (p.joins.map .text)) = some p.joins :=
    Datum.list?_map fun _ _ => rfl
  have harguments := p.arguments.ofDatum?_toDatum
  obtain ⟨joins, column, grain, arguments⟩ := p
  cases joins <;> cases grain <;> by_cases hempty : arguments = .empty <;>
    simp_all [toDatum, Arguments.isEmpty_iff, ofDatum?, Datum.recordFields?, Datum.Fields.default?,
      Datum.Fields.required?, Datum.Fields.optional?, List.lookup_cons, List.lookup_nil,
      Datum.text?, Datum.nullable?, Grain.named?_name]

end Path

/-! ## Operands and filters -/

namespace Operand

/-- The floating point number an operand is. -/
def reals : Operand → List Double
  | real x => [x]
  | _ => []

@[simp] theorem reals_toDatum (v : Operand) : v.toDatum.reals = v.reals := by
  cases v <;> rfl

theorem ofDatum?_toDatum {v : Operand} (h : ∀ x ∈ v.reals, x.isFinite = true) :
    ofDatum? v.toDatum = some v := by
  cases v with
  | int n =>
    have hmin : Int64.minValue.toInt ≤ n.toInt := Int64.minValue_le_toInt n
    have hmax : n.toInt ≤ Int64.maxValue.toInt := Int64.toInt_le n
    have hrange : (decide (Int64.minValue.toInt ≤ n.toInt) &&
        decide (n.toInt ≤ Int64.maxValue.toInt)) = true := by
      rw [Bool.and_eq_true, decide_eq_true_iff, decide_eq_true_iff]
      exact ⟨hmin, hmax⟩
    rw [toDatum, ofDatum?, if_pos hrange, Int64.ofInt_toInt]
  | real x => simp [toDatum, ofDatum?, h x (by simp [reals])]
  | _ => rfl

end Operand

namespace Predicate

/-- The floating point numbers among the operands. -/
def reals (p : Predicate) : List Double :=
  p.values.flatMap Operand.reals

theorem reals_toDatum (p : Predicate) : p.toDatum.reals = p.reals := by
  unfold toDatum reals
  split_ifs with hempty
  · rw [List.isEmpty_iff.1 hempty]
    simp [Path.reals_toDatum]
  · simp [Path.reals_toDatum, List.flatMap_map]

theorem ofDatum?_toDatum {p : Predicate} (h : ∀ x ∈ p.reals, x.isFinite = true) :
    ofDatum? p.toDatum = some p := by
  have hvalues : Datum.list? Operand.ofDatum? (.list (p.values.map Operand.toDatum)) =
      some p.values :=
    Datum.list?_map fun v hv => Operand.ofDatum?_toDatum fun x hx =>
      h x (List.mem_flatMap.2 ⟨v, hv, hx⟩)
  have hcolumn := p.column.ofDatum?_toDatum
  have hop := p.op.named?_name
  obtain ⟨column, op, values⟩ := p
  cases values <;>
    simp_all [toDatum, ofDatum?, Datum.fields?, Datum.recordFields?, Datum.Fields.default?,
      Datum.Fields.required?, List.lookup_cons, List.lookup_nil]

end Predicate

namespace Filter

/-- The floating point numbers among the operands of its predicates. -/
def reals (f : Filter) : List Double :=
  f.predicates.flatMap Predicate.reals

theorem reals_toDatum (f : Filter) : f.toDatum.reals = f.reals := by
  induction f with
  | and a b iha ihb => simp [toDatum, reals, predicates, iha, ihb]
  | or a b iha ihb => simp [toDatum, reals, predicates, iha, ihb]
  | not f ih => simp [toDatum, reals, predicates, ih]
  | test p => simp [toDatum, reals, predicates, Predicate.reals_toDatum]

theorem ofDatum?_not (f : Filter) :
    ofDatum? (.record [("not", f.toDatum)]) = (ofDatum? f.toDatum).map .not := by
  cases f <;> simp [toDatum, ofDatum?]

theorem ofDatum?_test (p : Predicate) :
    ofDatum? (.record [("predicate", p.toDatum)]) = (Predicate.ofDatum? p.toDatum).map .test := by
  simp [Predicate.toDatum, ofDatum?]

theorem ofDatum?_toDatum {f : Filter} (h : ∀ x ∈ f.reals, x.isFinite = true) :
    ofDatum? f.toDatum = some f := by
  induction f with
  | and a b iha ihb =>
    simp only [reals, predicates, List.flatMap_append, List.forall_mem_append] at h
    simp [toDatum, ofDatum?, iha h.1, ihb h.2]
  | or a b iha ihb =>
    simp only [reals, predicates, List.flatMap_append, List.forall_mem_append] at h
    simp [toDatum, ofDatum?, iha h.1, ihb h.2]
  | not f ih =>
    rw [toDatum, ofDatum?_not, ih h]
    rfl
  | test p =>
    have hp : ∀ x ∈ p.reals, x.isFinite = true := by simpa [reals, predicates] using h
    rw [toDatum, ofDatum?_test, Predicate.ofDatum?_toDatum hp]
    rfl

end Filter

/-! ## Order and pagination -/

theorem SortKey.ofDatum?_toDatum (s : SortKey) : ofDatum? s.toDatum = some s := by
  have hdirection := directionName_named? s.direction
  simp_all [toDatum, ofDatum?, Datum.fields?, Datum.recordFields?, Datum.Fields.default?,
    Datum.Fields.required?, List.lookup_cons, Datum.text?]

theorem Datum.word?_toNat (n : UInt64) : Datum.word? (.int n.toNat) = some n := by
  have hlt : (n.toNat : Int) < UInt64.size := Int.ofNat_lt.2 n.toNat_lt
  rw [Datum.word?, if_pos]
  · rw [Int.toNat_natCast, UInt64.ofNat_toNat]
  · rw [Bool.and_eq_true, decide_eq_true_iff, decide_eq_true_iff]
    exact ⟨Int.natCast_nonneg _, hlt⟩

theorem Datum.nullable?_word (n : UInt64) :
    Datum.nullable? Datum.word? (.int n.toNat) = some (some n) := by
  rw [Datum.nullable?, Datum.word?_toNat] <;> simp

theorem Datum.Fields.optional?_of_lookup {α : Type} {fs : Datum.Fields} {name : String}
    {value : Datum.Reader α} {write : α → Datum} {o : Option α}
    (hlookup : fs.lookup name = o.map write)
    (h : ∀ a, Datum.nullable? value (write a) = some (some a)) :
    fs.optional? name value = some o := by
  rw [Datum.Fields.optional?, Datum.Fields.default?, hlookup]
  cases o with
  | none => rfl
  | some a => exact h a

theorem Pagination.reals_toDatum (p : Pagination) : p.toDatum.reals = [] := by
  obtain ⟨offset, limit, wantTotal⟩ := p
  cases offset <;> cases limit <;> rfl

theorem Pagination.ofDatum?_toDatum (p : Pagination) : ofDatum? p.toDatum = some p := by
  obtain ⟨offset, limit, wantTotal⟩ := p
  let ms : Datum.Fields := countMember "offset" offset ++ countMember "limit" limit ++
    [("want_total", .bool wantTotal)]
  have hfields : Datum.fields? ["offset", "limit", "want_total"] (.record ms) = some ms := by
    cases offset <;> cases limit <;> rfl
  have hoffset : ms.optional? "offset" Datum.word? = some offset := by
    refine Datum.Fields.optional?_of_lookup ?_ Datum.nullable?_word
    cases offset <;> cases limit <;> rfl
  have hlimit : ms.optional? "limit" Datum.word? = some limit := by
    refine Datum.Fields.optional?_of_lookup ?_ Datum.nullable?_word
    cases offset <;> cases limit <;> rfl
  have htotal : ms.default? "want_total" false Datum.bool? = some wantTotal := by
    cases offset <;> cases limit <;> rfl
  have hdatum : toDatum ⟨offset, limit, wantTotal⟩ = .record ms := rfl
  rw [hdatum, ofDatum?, hfields]
  simp [hoffset, hlimit, htotal]

end Rollup
