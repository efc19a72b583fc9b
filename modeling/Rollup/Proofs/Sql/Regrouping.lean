/-
Grouping in two steps. Rows grouped by more keys than are asked for can be grouped again by those
that are: the fine groups of a coarse one make it up, and every aggregate but the count of distinct
values is found from what the same aggregate, or the sum and the count, came to in the fine groups.
-/
import Mathlib.Algebra.Order.Field.Rat
import Mathlib.Data.List.Perm.Basic
import Rollup.Proofs.Sql.Evaluation

namespace Rollup.Sql

/-! ## Bringing values together -/

section

variable {α : Type} (op : α → α → α) [Std.Associative op]

theorem combine_append (vs ws : List (Option α)) :
    combine op (vs ++ ws) = Option.merge op (combine op vs) (combine op ws) := by
  unfold combine
  induction vs with
  | nil => rw [List.nil_append, List.foldr_nil, Option.merge_none_left]
  | cons v vs ih =>
    rw [List.cons_append, List.foldr_cons, ih, List.foldr_cons]
    exact (Std.Associative.assoc v _ _).symm

theorem combine_flatten (gs : List (List (Option α))) :
    combine op (gs.map (combine op)) = combine op gs.flatten := by
  induction gs with
  | nil => rfl
  | cons g gs ih =>
    rw [List.flatten_cons, combine_append, ← ih, List.map_cons]
    rfl

theorem combine_perm [Std.Commutative op] {vs ws : List (Option α)} (h : vs.Perm ws) :
    combine op vs = combine op ws :=
  h.foldr_eq none

end

namespace Database

variable {V : Type} (db : Database V)

theorem amount_comp_number (o : Option ℚ) : (o.map db.number).map db.amount = o := by
  cases o with
  | none => rfl
  | some q => simp [db.amount_number]

theorem total_map_sum (gs : List (List (Option V))) :
    db.total (gs.map db.sum) = db.total gs.flatten := by
  have hsums : (gs.map db.sum).map (Option.map db.amount) =
      (gs.map fun g => g.map (Option.map db.amount)).map (combine (· + ·)) := by
    simp only [List.map_map, List.map_inj_left, Function.comp_def, sum, amount_comp_number]
    exact fun _ _ => rfl
  rw [total, hsums, combine_flatten, total, List.map_flatten]

/-- The sum of the sums. -/
theorem sum_map_sum (gs : List (List (Option V))) : db.sum (gs.map db.sum) = db.sum gs.flatten := by
  rw [sum, total_map_sum, ← sum]

theorem total_map_count {gs : List (List (Option V))} (h : gs ≠ []) :
    db.total (gs.map db.count) = some (present gs.flatten : ℚ) := by
  induction gs with
  | nil => exact absurd rfl h
  | cons g gs ih =>
    have hcons : db.total ((g :: gs).map db.count) =
        Option.merge (· + ·) (some (present g : ℚ)) (db.total (gs.map db.count)) := by
      simp [total, combine, count, db.amount_number]
    have hflatten : present (g :: gs).flatten = present g + present gs.flatten := by
      simp [present, List.countP_append]
    rw [hcons, hflatten]
    cases gs with
    | nil => simp [total, combine, present]
    | cons g' gs => rw [ih (List.cons_ne_nil _ _), Option.merge_some_some, Nat.cast_add]

/-- The sum of the counts, of which there is one at least. -/
theorem sum_map_count {gs : List (List (Option V))} (h : gs ≠ []) :
    db.sum (gs.map db.count) = db.count gs.flatten := by
  rw [sum, total_map_count db h]
  rfl

theorem present_ne_zero {vs : List (Option V)} {t : ℚ} (h : db.total vs = some t) :
    present vs ≠ 0 := by
  intro hzero
  have hnone : vs.map (Option.map db.amount) = List.replicate vs.length none := by
    rw [List.eq_replicate_iff]
    refine ⟨List.length_map _, fun o ho => ?_⟩
    obtain ⟨v, hv, rfl⟩ := List.mem_map.1 ho
    have := List.countP_eq_zero.1 hzero v hv
    cases v with
    | none => rfl
    | some v => simp at this
  have hempty : ∀ n, combine (α := ℚ) (· + ·) (List.replicate n none) = none := by
    intro n
    induction n with
    | zero => rfl
    | succ n ih =>
      rw [List.replicate_succ, combine, List.foldr_cons, Option.merge_none_left]
      exact ih
  rw [total, hnone, hempty] at h
  cases h

/-- The quotient of the sum of the sums and the sum of the counts. Without any groups there is
neither a sum nor an average. -/
theorem quotient_sums (gs : List (List (Option V))) :
    db.quotient (db.times (db.sum (gs.map db.sum)) (some (db.number 1)))
        (db.sum (gs.map db.count)) =
      db.avg gs.flatten := by
  rw [sum_map_sum, avg, sum]
  cases htotal : db.total gs.flatten with
  | none => rfl
  | some t =>
    have hgs : gs ≠ [] := by
      rintro rfl
      cases htotal
    have hpresent : (present gs.flatten : ℚ) ≠ 0 := Nat.cast_ne_zero.2 (db.present_ne_zero htotal)
    rw [sum_map_count db hgs, count]
    simp [quotient, times, db.amount_number, hpresent]

section

variable {vs ws : List (Option V)} (h : vs.Perm ws)

include h

theorem total_perm : db.total vs = db.total ws :=
  combine_perm _ (h.map _)

theorem sum_perm : db.sum vs = db.sum ws := by
  rw [sum, total_perm db h, ← sum]

theorem count_perm : db.count vs = db.count ws := by
  rw [count, present, h.countP_eq]
  rfl

theorem avg_perm : db.avg vs = db.avg ws := by
  rw [avg, total_perm db h, present, h.countP_eq]
  rfl

end

end Database

/-! ## Keys -/

/-- Whether an expression can be a key: a column, or SQL text. -/
def Expr.isKey : Expr → Bool
  | .raw _ => true
  | .column _ _ => true
  | _ => false

section

variable {V : Type} [LinearOrder V] (db : Database V) {keys : List Expr} {g : List (SourceRow V)}

theorem value_key {e : Expr} (he : e ∈ keys) (hkey : e.isKey = true) :
    db.value keys g e = g.head?.bind (· e) := by
  cases e with
  | raw sql =>
    refine if_pos (List.any_eq_true.2 ⟨_, he, ?_⟩)
    exact beq_self_eq_true _
  | column table name =>
    refine if_pos (List.any_eq_true.2 ⟨_, he, ?_⟩)
    simp
  | _ => cases hkey

/-- The values of the keys over a group are those they have in its rows. -/
theorem map_value_keys {k : List (Option V)} (hkeys : ∀ e ∈ keys, e.isKey = true) (hg : g ≠ [])
    (h : ∀ r ∈ g, keys.map r = k) : keys.map (db.value keys g) = k := by
  obtain ⟨r, rest, rfl⟩ := List.exists_cons_of_ne_nil hg
  rw [← h r List.mem_cons_self]
  exact List.map_congr_left fun e he => value_key db he (hkeys e he)

end

/-- A label that only one item has is that item's. -/
theorem Record.get_record {V : Type} {s : Select} {u : SourceRow V}
    (h : (s.items.map (·.label)).Nodup) {i : Item} (hi : i ∈ s.items) {label : String}
    (hlabel : i.label = some label) :
    (s.record u).get label = u i.expr := by
  unfold Record.get Select.record
  generalize s.items = items at h hi
  induction items with
  | nil => cases hi
  | cons j items ih =>
    obtain ⟨hj, hitems⟩ := List.nodup_cons.1 h
    rw [List.map_cons, List.lookup_cons]
    rcases List.mem_cons.1 hi with rfl | hi
    · simp [hlabel]
    · have hne : (some label == j.label) = false := by
        rw [beq_eq_false_iff_ne]
        intro heq
        exact hj (List.mem_map.2 ⟨i, hi, hlabel.trans heq⟩)
      rw [hne]
      exact ih hitems hi

/-! ## Groups of groups -/

section

variable {α κ : Type} [DecidableEq κ] (key : α → κ)

/-- The groups of some keys make up what has one of these keys. -/
theorem flatten_filters_perm (as : List α) {ks : List κ} (h : ks.Nodup) :
    (ks.map fun k => as.filter (key · = k)).flatten.Perm (as.filter (key · ∈ ks)) := by
  induction ks with
  | nil => simp
  | cons k ks ih =>
    obtain ⟨hk, hks⟩ := List.nodup_cons.1 h
    have hsplit := List.filter_append_perm (key · = k) (as.filter (key · ∈ k :: ks))
    rw [List.filter_filter, List.filter_filter] at hsplit
    have hfirst : as.filter (key · = k) =
        as.filter fun a => decide (key a = k) && decide (key a ∈ k :: ks) := by
      refine List.filter_congr fun a _ => ?_
      by_cases ha : key a = k <;> simp [ha]
    have hrest : as.filter (key · ∈ ks) =
        as.filter fun a => !decide (key a = k) && decide (key a ∈ k :: ks) := by
      refine List.filter_congr fun a _ => ?_
      by_cases ha : key a = k
      · simp [ha, hk]
      · simp [ha]
    rw [List.map_cons, List.flatten_cons]
    refine ((ih hks).append_left _).trans ?_
    rw [hfirst, hrest]
    exact hsplit

/-- The keys that coarse keys are made of come to the same coarse keys as the rows. -/
theorem dedup_map_dedup_perm {κ' : Type} [DecidableEq κ'] (as : List α) (π : κ → κ') :
    (((as.map key).dedup).map π).dedup.Perm (as.map fun a => π (key a)).dedup := by
  rw [List.perm_ext_iff_of_nodup (List.nodup_dedup _) (List.nodup_dedup _)]
  intro k
  simp

end

/-- A list with as many of everything as an image is itself the image of a list with as many of
everything. -/
theorem exists_perm_of_perm_map {α β : Type} {f : α → β} {as : List α} {bs : List β}
    (h : bs.Perm (as.map f)) : ∃ as' : List α, as'.Perm as ∧ bs = as'.map f := by
  induction bs generalizing as with
  | nil =>
    rw [List.nil_perm, List.map_eq_nil_iff] at h
    exact ⟨[], by rw [h], rfl⟩
  | cons b bs ih =>
    obtain ⟨a, ha, rfl⟩ := List.mem_map.1 (h.subset List.mem_cons_self)
    obtain ⟨front, back, rfl⟩ := List.append_of_mem ha
    have hmiddle : (front ++ a :: back).Perm (a :: (front ++ back)) := List.perm_middle
    obtain ⟨as', hperm, rfl⟩ := ih ((h.trans (hmiddle.map f)).cons_inv)
    exact ⟨a :: as', (hperm.cons a).trans hmiddle.symm, rfl⟩

end Rollup.Sql
