/-
Lists of values under keys, in the order in which the keys were first given. A value given under a
key that is there already takes the place of the old one.
-/

namespace Rollup.Keyed

variable {α : Type}

/-- Puts a value under a key. -/
def put (key : String) (a : α) : List (String × α) → List (String × α)
  | [] => [(key, a)]
  | (k, b) :: rest => if k == key then (key, a) :: rest else (k, b) :: put key a rest

/-- Takes away what stands under a key. -/
def erase (key : String) (entries : List (String × α)) : List (String × α) :=
  entries.filter (·.1 != key)

theorem lookup_put (key : String) (a : α) (entries : List (String × α)) (k : String) :
    (put key a entries).lookup k = if k == key then some a else entries.lookup k := by
  induction entries with
  | nil => cases h : k == key <;> simp [put, List.lookup_cons, h]
  | cons e rest ih =>
    obtain ⟨l, b⟩ := e
    cases hl : l == key with
    | true =>
      rw [beq_iff_eq] at hl
      subst hl
      cases h : k == l <;> simp [put, List.lookup_cons, h]
    | false =>
      cases h : k == l with
      | true =>
        rw [beq_iff_eq] at h
        subst h
        simp [put, hl]
      | false => simp only [put, hl, List.lookup_cons, h, ih, Bool.false_eq_true, if_false]

end Rollup.Keyed
