/-
Argument values by name. Putting a value under a name leaves those of the other names alone; values
are known by what each name has; a list of values under different names, in the order of the names,
is kept as it is; and of any list all is kept just if the names differ.
-/
import Mathlib.Logic.Basic
import Rollup.Model.Arguments

namespace Rollup.Arguments

/-! ## Values looked up -/

theorem lookup_cons_eq (n v key : String) (es : List (String × String)) :
    ((n, v) :: es).lookup key = if key = n then some v else es.lookup key := by
  rw [List.lookup_cons]
  by_cases h : key = n
  · simp [h]
  · rw [beq_false_of_ne h, if_neg h]

theorem lookup_insertEntry (name value key : String) (es : List (String × String)) :
    (insertEntry name value es).lookup key =
      if key = name then some value else es.lookup key := by
  induction es with
  | nil => exact lookup_cons_eq name value key []
  | cons e rest ih =>
    obtain ⟨n, v⟩ := e
    simp only [insertEntry]
    split
    · rw [lookup_cons_eq]
    · split
      · rename_i hname
        subst hname
        rw [lookup_cons_eq, lookup_cons_eq]
        split <;> rfl
      · rename_i hne
        rw [lookup_cons_eq, lookup_cons_eq, ih]
        by_cases hk : key = n
        · rw [if_pos hk, if_neg fun h => hne (h.symm.trans hk), if_pos hk]
        · rw [if_neg hk, if_neg hk]

theorem get?_insert (a : Arguments) (name value key : String) :
    (a.insert name value).get? key = if key = name then some value else a.get? key :=
  lookup_insertEntry name value key a.entries

theorem lookup_eq_none_of_lt {es : List (String × String)} {name : String}
    (h : ∀ e ∈ es, name < e.1) : es.lookup name = none := by
  induction es with
  | nil => rfl
  | cons e rest ih =>
    obtain ⟨n, v⟩ := e
    have hlt : name < n := h (n, v) List.mem_cons_self
    rw [lookup_cons_eq, if_neg]
    · exact ih fun e he => h e (List.mem_cons_of_mem _ he)
    · rintro rfl
      exact String.lt_irrefl _ hlt

/-- A name before all others is not looked up there. -/
theorem not_lt_of_lookup_eq {n v k w : String} {es fs : List (String × String)}
    (hfs : ∀ f ∈ fs, k < f.1) (h : ((n, v) :: es).lookup n = ((k, w) :: fs).lookup n) :
    ¬ n < k := by
  intro hlt
  rw [lookup_cons_eq n v, if_pos rfl, lookup_eq_none_of_lt] at h
  · cases h
  · intro f hf
    rcases List.mem_cons.1 hf with rfl | hf
    · exact hlt
    · exact String.lt_trans hlt (hfs f hf)

/-- Entries in the order of their names are known by their values. -/
theorem entries_ext {es fs : List (String × String)} (he : es.Pairwise fun a b => a.1 < b.1)
    (hf : fs.Pairwise fun a b => a.1 < b.1) (h : ∀ name, es.lookup name = fs.lookup name) :
    es = fs := by
  induction es generalizing fs with
  | nil =>
    cases fs with
    | nil => rfl
    | cons f fs =>
      have hf := h f.1
      rw [lookup_cons_eq, if_pos rfl] at hf
      cases hf
  | cons e es ih =>
    cases fs with
    | nil =>
      have he := h e.1
      rw [lookup_cons_eq, if_pos rfl] at he
      cases he
    | cons f fs =>
      obtain ⟨n, v⟩ := e
      obtain ⟨k, w⟩ := f
      obtain ⟨hes, hes'⟩ := List.pairwise_cons.1 he
      obtain ⟨hfs, hfs'⟩ := List.pairwise_cons.1 hf
      have hname : n = k := String.le_antisymm
        (String.not_lt.1 (not_lt_of_lookup_eq hes (h k).symm))
        (String.not_lt.1 (not_lt_of_lookup_eq hfs (h n)))
      subst hname
      have hvalue := h n
      rw [lookup_cons_eq, lookup_cons_eq, if_pos rfl, if_pos rfl] at hvalue
      cases hvalue
      have hrest : es = fs := by
        refine ih hes' hfs' fun name => ?_
        have hlookup := h name
        rw [lookup_cons_eq, lookup_cons_eq] at hlookup
        by_cases hn : name = n
        · subst hn
          rw [lookup_eq_none_of_lt hes, lookup_eq_none_of_lt hfs]
        · rwa [if_neg hn, if_neg hn] at hlookup
      rw [hrest]

theorem ext_get? {a b : Arguments} (h : ∀ name, a.get? name = b.get? name) : a = b := by
  obtain ⟨es, hes⟩ := a
  obtain ⟨fs, hfs⟩ := b
  cases entries_ext hes hfs h
  rfl

theorem mem_of_get? {a : Arguments} {name v : String} (h : a.get? name = some v) :
    (name, v) ∈ a.entries := by
  obtain ⟨before, after, hentries, -⟩ := List.lookup_eq_some_iff.1 h
  exact hentries ▸ List.mem_append_right _ List.mem_cons_self

theorem get?_of_mem {a : Arguments} {e : String × String} (h : e ∈ a.entries) :
    a.get? e.1 = some e.2 := by
  obtain ⟨before, after, hentries⟩ := List.append_of_mem h
  refine List.lookup_eq_some_iff.2 ⟨before, after, hentries, fun e' he' => ?_⟩
  have hordered := a.ordered
  rw [hentries, List.pairwise_append] at hordered
  have hlt : e'.1 < e.1 := hordered.2.2 e' he' e List.mem_cons_self
  simpa using (String.ne_of_lt hlt).symm

/-! ## Values given by a list -/

theorem mem_foldl_insert {base : Arguments} {es : List (String × String)}
    {e : String × String} (h : e ∈ (es.foldl (fun a e => a.insert e.1 e.2) base).entries) :
    e ∈ base.entries ∨ e ∈ es := by
  induction es generalizing base with
  | nil => exact .inl h
  | cons x es ih =>
    rcases ih h with h | h
    · rcases mem_insertEntry h with rfl | h
      · exact .inr List.mem_cons_self
      · exact .inl h
    · exact .inr (List.mem_cons_of_mem _ h)

theorem isSome_get?_foldl (es : List (String × String)) (a : Arguments) (name : String) :
    ((es.foldl (fun a e => a.insert e.1 e.2) a).get? name).isSome = true ↔
      (∃ e ∈ es, e.1 = name) ∨ (a.get? name).isSome = true := by
  induction es generalizing a with
  | nil => simp
  | cons e rest ih =>
    rw [List.foldl_cons, ih, get?_insert]
    by_cases hname : name = e.1
    · simp [hname]
    · simp [hname, Ne.symm hname]

theorem insertEntry_last {name value : String} {es : List (String × String)}
    (h : ∀ e ∈ es, e.1 < name) : insertEntry name value es = es ++ [(name, value)] := by
  induction es with
  | nil => rfl
  | cons e rest ih =>
    obtain ⟨hlt, hrest⟩ := List.forall_mem_cons.1 h
    have hnot : ¬ name < e.1 := String.lt_asymm hlt
    have hne : name ≠ e.1 := fun heq => String.lt_irrefl _ (heq ▸ hlt)
    rw [insertEntry, if_neg hnot, if_neg hne, ih hrest, List.cons_append]

theorem entries_foldl_insert {es : List (String × String)} {a : Arguments}
    (h : (a.entries ++ es).Pairwise fun x y => x.1 < y.1) :
    (es.foldl (fun a e => a.insert e.1 e.2) a).entries = a.entries ++ es := by
  induction es generalizing a with
  | nil => simp
  | cons e rest ih =>
    have hlast : (a.insert e.1 e.2).entries = a.entries ++ [e] := by
      refine insertEntry_last fun x hx => ?_
      exact (List.pairwise_append.1 h).2.2 x hx e List.mem_cons_self
    rw [List.foldl_cons, ih, hlast, List.append_assoc]
    · rfl
    · rwa [hlast, List.append_assoc]

/-- Arguments are what their entries give. -/
theorem ofList_entries (a : Arguments) : ofList a.entries = a := by
  have h := @entries_foldl_insert a.entries empty a.ordered
  obtain ⟨es, hes⟩ := a
  unfold ofList
  generalize List.foldl _ _ _ = b at h
  obtain ⟨fs, hfs⟩ := b
  cases (show fs = es from h)
  rfl

/-! ## Values replaced -/

open scoped List

theorem exists_perm_insertEntry (name value : String) (es : List (String × String)) :
    ∃ replaced, (name, value) :: es ~ insertEntry name value es ++ replaced := by
  induction es with
  | nil => exact ⟨[], .refl _⟩
  | cons e rest ih =>
    obtain ⟨n, v⟩ := e
    simp only [insertEntry]
    split
    · exact ⟨[], by simp⟩
    · split
      · have hlast : (n, v) :: (name, value) :: rest ~ (name, value) :: rest ++ [(n, v)] :=
          (List.perm_append_singleton _ _).symm
        exact ⟨[(n, v)], (List.Perm.swap _ _ rest).trans hlast⟩
      · obtain ⟨replaced, hperm⟩ := ih
        exact ⟨replaced, (List.Perm.swap _ _ rest).trans (hperm.cons (n, v))⟩

theorem exists_perm_foldl_insert (es : List (String × String)) (a : Arguments) :
    ∃ replaced, a.entries ++ es ~
      (es.foldl (fun a e => a.insert e.1 e.2) a).entries ++ replaced := by
  induction es generalizing a with
  | nil => exact ⟨[], .refl _⟩
  | cons e rest ih =>
    obtain ⟨replaced, hinsert⟩ := exists_perm_insertEntry e.1 e.2 a.entries
    obtain ⟨later, hrest⟩ := ih (a.insert e.1 e.2)
    refine ⟨later ++ replaced, ?_⟩
    calc a.entries ++ e :: rest
      _ ~ e :: a.entries ++ rest := List.perm_middle
      _ ~ (a.insert e.1 e.2).entries ++ replaced ++ rest := hinsert.append_right rest
      _ ~ (a.insert e.1 e.2).entries ++ rest ++ replaced := by
        rw [List.append_assoc, List.append_assoc]
        exact List.perm_append_comm.append_left _
      _ ~ ((e :: rest).foldl (fun a e => a.insert e.1 e.2) a).entries ++ (later ++ replaced) := by
        rw [← List.append_assoc]
        exact hrest.append_right replaced

theorem nodup_names (a : Arguments) : (a.entries.map Prod.fst).Nodup :=
  List.pairwise_map.2 (a.ordered.imp String.ne_of_lt)

/-- Nothing is replaced exactly if the names differ, where what is kept has every name once. -/
theorem replaced_eq_nil_iff {α β : Type} {name : α → β} {xs kept replaced : List α}
    (hperm : xs ~ kept ++ replaced) (honce : (kept.map name).Nodup)
    (hnames : ∀ x ∈ xs, name x ∈ kept.map name) :
    replaced = [] ↔ (xs.map name).Nodup := by
  have hall := hperm.map name
  rw [List.map_append] at hall
  constructor
  · rintro rfl
    rw [List.map_nil, List.append_nil] at hall
    exact hall.nodup_iff.2 honce
  · intro hnodup
    rw [hall.nodup_iff, List.nodup_append] at hnodup
    refine List.eq_nil_iff_forall_not_mem.2 fun x hx => ?_
    have hname := hnames x (hperm.mem_iff.2 (List.mem_append_right _ hx))
    exact hnodup.2.2 _ hname _ (List.mem_map_of_mem hx) rfl

/-- Of the values in a list those remain that no later one of their name replaces; all remain if
the names differ. -/
theorem exists_perm_ofList (es : List (String × String)) :
    ∃ replaced, es ~ (ofList es).entries ++ replaced ∧
      (replaced = [] ↔ (es.map Prod.fst).Nodup) := by
  obtain ⟨replaced, hperm⟩ := exists_perm_foldl_insert es empty
  refine ⟨replaced, hperm, replaced_eq_nil_iff hperm (nodup_names _) fun e he => ?_⟩
  have hsome : ((ofList es).get? e.1).isSome = true :=
    (isSome_get?_foldl es empty e.1).2 (.inl ⟨e, he, rfl⟩)
  obtain ⟨value, hvalue⟩ := Option.isSome_iff_exists.1 hsome
  exact List.mem_map.2 ⟨(e.1, value), mem_of_get? hvalue, rfl⟩

end Rollup.Arguments
