/-
The floating point numbers in a value, at any depth: a value is finite when they are.
-/
import Mathlib.Data.Set.Defs
import Rollup.Datum.Basic

namespace Rollup.Datum

mutual

/-- The floating point numbers in a value, from left to right. -/
def reals : Datum → List Double
  | .real x => [x]
  | .list items => itemReals items
  | .record ms => memberReals ms
  | _ => []

/-- The floating point numbers in the items of a list. -/
def itemReals : List Datum → List Double
  | [] => []
  | d :: rest => reals d ++ itemReals rest

/-- The floating point numbers in the members of a record. -/
def memberReals : List (String × Datum) → List Double
  | [] => []
  | (_, d) :: rest => reals d ++ memberReals rest

end

theorem itemReals_eq (items : List Datum) : itemReals items = items.flatMap reals := by
  induction items with
  | nil => rfl
  | cons d rest ih => rw [itemReals, ih, List.flatMap_cons]

theorem memberReals_eq (ms : List (String × Datum)) :
    memberReals ms = ms.flatMap fun m => m.2.reals := by
  induction ms with
  | nil => rfl
  | cons m rest ih => rw [memberReals, ih, List.flatMap_cons]

@[simp] theorem reals_null : null.reals = [] := rfl

@[simp] theorem reals_bool (b : Bool) : (bool b).reals = [] := rfl

@[simp] theorem reals_int (n : Int) : (int n).reals = [] := rfl

@[simp] theorem reals_real (x : Double) : (real x).reals = [x] := rfl

@[simp] theorem reals_text (s : String) : (text s).reals = [] := rfl

@[simp] theorem reals_list (items : List Datum) : (list items).reals = items.flatMap reals :=
  itemReals_eq items

@[simp] theorem reals_record (ms : List (String × Datum)) :
    (record ms).reals = ms.flatMap fun m => m.2.reals :=
  memberReals_eq ms

mutual

theorem isFinite_iff : ∀ d : Datum, d.isFinite = true ↔ ∀ x ∈ d.reals, x.isFinite = true
  | .null | .bool _ | .int _ | .text _ => by simp [isFinite]
  | .real x => by simp [isFinite]
  | .list items => by rw [isFinite, reals, allFinite_iff]
  | .record ms => by rw [isFinite, reals, allMembersFinite_iff]

theorem allFinite_iff : ∀ items : List Datum,
    allFinite items = true ↔ ∀ x ∈ itemReals items, x.isFinite = true
  | [] => by simp [allFinite, itemReals]
  | d :: rest => by
    rw [allFinite, itemReals, Bool.and_eq_true, isFinite_iff d,
      allFinite_iff rest, List.forall_mem_append]

theorem allMembersFinite_iff : ∀ ms : List (String × Datum),
    allMembersFinite ms = true ↔ ∀ x ∈ memberReals ms, x.isFinite = true
  | [] => by simp [allMembersFinite, memberReals]
  | (_, d) :: rest => by
    rw [allMembersFinite, memberReals, Bool.and_eq_true, isFinite_iff d,
      allMembersFinite_iff rest, List.forall_mem_append]

end

/-- Every floating point number in the value is one of `S`. -/
def Over (S : Set Double) (d : Datum) : Prop :=
  ∀ x ∈ d.reals, x ∈ S

theorem over_list {S : Set Double} {items : List Datum} :
    Over S (.list items) ↔ ∀ d ∈ items, Over S d := by
  simp only [Over, reals_list, List.mem_flatMap]
  exact ⟨fun h d hd x hx => h x ⟨d, hd, hx⟩, fun h x ⟨d, hd, hx⟩ => h d hd x hx⟩

theorem over_record {S : Set Double} {ms : List (String × Datum)} :
    Over S (.record ms) ↔ ∀ m ∈ ms, Over S m.2 := by
  simp only [Over, reals_record, List.mem_flatMap]
  exact ⟨fun h m hm x hx => h x ⟨m, hm, hx⟩, fun h x ⟨m, hm, hx⟩ => h m hm x hx⟩

end Rollup.Datum
