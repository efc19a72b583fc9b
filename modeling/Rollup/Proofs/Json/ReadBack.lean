/-
Values read back from their texts, as far as containers may stand inside one another. What comes
back is the value itself except for its numbers: a floating point number is rounded anew, one that
is not finite is null, and an integer that fits no word is a floating point number.
-/
import Rollup.Proofs.Json.Numbers
import Rollup.Proofs.Json.Unambiguous

namespace Rollup

namespace Datum

/-! ## Depth -/

mutual

/-- How many containers stand inside one another. -/
def depth : Datum → Nat
  | .list items => itemsDepth items + 1
  | .record ms => membersDepth ms + 1
  | _ => 0

/-- The greatest depth of the items of a list. -/
def itemsDepth : List Datum → Nat
  | [] => 0
  | d :: rest => max (depth d) (itemsDepth rest)

/-- The greatest depth of the members of a record. -/
def membersDepth : List (String × Datum) → Nat
  | [] => 0
  | (_, d) :: rest => max (depth d) (membersDepth rest)

end

@[simp] theorem depth_null : null.depth = 0 := rfl

@[simp] theorem depth_bool (b : Bool) : (bool b).depth = 0 := rfl

@[simp] theorem depth_int (n : Int) : (int n).depth = 0 := rfl

@[simp] theorem depth_real (x : Double) : (real x).depth = 0 := rfl

@[simp] theorem depth_text (s : String) : (text s).depth = 0 := rfl

theorem itemsDepth_le_iff {items : List Datum} {n : Nat} :
    itemsDepth items ≤ n ↔ ∀ d ∈ items, d.depth ≤ n := by
  induction items with
  | nil => simp [itemsDepth]
  | cons d rest ih => rw [itemsDepth, max_le_iff, ih, List.forall_mem_cons]

theorem membersDepth_le_iff {ms : List (String × Datum)} {n : Nat} :
    membersDepth ms ≤ n ↔ ∀ m ∈ ms, m.2.depth ≤ n := by
  induction ms with
  | nil => simp [membersDepth]
  | cons m rest ih => rw [membersDepth, max_le_iff, ih, List.forall_mem_cons]

theorem depth_list_le_iff {items : List Datum} {n : Nat} :
    (list items).depth ≤ n + 1 ↔ ∀ d ∈ items, d.depth ≤ n := by
  rw [depth, Nat.add_le_add_iff_right, itemsDepth_le_iff]

theorem depth_record_le_iff {ms : List (String × Datum)} {n : Nat} :
    (record ms).depth ≤ n + 1 ↔ ∀ m ∈ ms, m.2.depth ≤ n := by
  rw [depth, Nat.add_le_add_iff_right, membersDepth_le_iff]

/-! ## What a value is read as -/

mutual

/-- The value that the text of a value is read as. -/
def reread : Datum → Datum
  | .int n => Json.rereadInt n
  | .real x => if x.isFinite then .real x.reread else .null
  | .list items => .list (rereadItems items)
  | .record ms => .record (rereadMembers ms)
  | d => d

/-- What the items of a list are read as. -/
def rereadItems : List Datum → List Datum
  | [] => []
  | d :: rest => reread d :: rereadItems rest

/-- What the members of a record are read as. -/
def rereadMembers : List (String × Datum) → List (String × Datum)
  | [] => []
  | (k, d) :: rest => (k, reread d) :: rereadMembers rest

end

@[simp] theorem reread_null : null.reread = null := rfl

@[simp] theorem reread_bool (b : Bool) : (bool b).reread = bool b := rfl

@[simp] theorem reread_text (s : String) : (text s).reread = text s := rfl

@[simp] theorem reread_list (items : List Datum) :
    (list items).reread = list (items.map reread) := by
  rw [reread]
  congr 1
  induction items with
  | nil => rfl
  | cons d rest ih => rw [rereadItems, ih, List.map_cons]

@[simp] theorem reread_record (ms : List (String × Datum)) :
    (record ms).reread = record (ms.map fun m => (m.1, m.2.reread)) := by
  rw [reread]
  congr 1
  induction ms with
  | nil => rfl
  | cons m rest ih => rw [rereadMembers, ih, List.map_cons]

theorem reread_word (n : UInt64) : (int n.toNat).reread = int n.toNat := by
  have hlt := n.toNat_lt
  exact Json.rereadInt_of_mem (by omega) (by omega)

theorem reread_int64 (n : Int64) : (int n.toInt).reread = int n.toInt := by
  have hlow := n.le_toInt
  have hhigh := n.toInt_lt
  exact Json.rereadInt_of_mem (by omega) (by omega)

end Datum

namespace Json

open Datum

/-! ## One value -/

/-- Whatever follows it, the text of the value is read as it should be, if the reader may open as
many containers. The fuel of a reader is twice the length of what it has before it. -/
def ReadsBack (d : Datum) : Prop :=
  ∀ fuel depth rest, Ends rest → 2 * ((write d).toList ++ rest).length ≤ fuel →
    value? fuel depth ((write d).toList ++ rest) =
      if d.depth ≤ depth then some (d.reread, rest) else none

/-- A text begins with a character that a value can begin with. -/
theorem exists_shapeAt? (d : Datum) :
    ∃ c rest, (write d).toList = c :: rest ∧ (shapeAt? c).isSome := by
  have hnumber {cs : List Char} (hne : cs ≠ []) (hcs : ∀ c ∈ cs, isNumberChar c = true) :
      ∃ c rest, cs = c :: rest ∧ (shapeAt? c).isSome := by
    obtain ⟨c, rest, hc, hshape⟩ := starts_of_number hne hcs
    exact ⟨c, rest, hc, by rw [hshape]; rfl⟩
  cases d with
  | null => exact ⟨'n', _, rfl, rfl⟩
  | bool b => cases b <;> exact ⟨_, _, rfl, rfl⟩
  | int n => exact hnumber (toList_toString_ne_nil n) fun _ => isNumberChar_of_mem_int
  | real x =>
    cases hx : x.isFinite with
    | false => exact ⟨'n', "ull".toList, by simp [write, realText, hx], rfl⟩
    | true =>
      obtain ⟨c, hc, -⟩ := mark_mem_realText hx
      exact hnumber (List.ne_nil_of_mem hc) (isNumberChar_of_mem_realText hx)
  | text s => exact ⟨'"', _, toList_stringText s, rfl⟩
  | list items => exact ⟨'[', _, by simp [write]; rfl, rfl⟩
  | record ms => exact ⟨'{', _, by simp [write]; rfl, rfl⟩

theorem skipSpace_cons {c : Char} (h : isSpace c = false) (cs : List Char) :
    skipSpace (c :: cs) = c :: cs := by
  rw [skipSpace, List.dropWhile_cons, h, if_neg Bool.false_ne_true]

theorem isSpace_of_shapeAt? {c : Char} (h : (shapeAt? c).isSome) : isSpace c = false := by
  by_contra hspace
  simp only [isSpace, Bool.not_eq_false, Bool.or_eq_true, beq_iff_eq] at hspace
  obtain ((rfl | rfl) | rfl) | rfl := hspace <;> exact absurd h (by decide)

/-- Fuel for a text is fuel for one step at least. -/
theorem exists_fuel {d : Datum} {rest : List Char} {fuel : Nat}
    (h : 2 * ((write d).toList ++ rest).length ≤ fuel) : ∃ n, fuel = n + 1 := by
  obtain ⟨c, cs, htext, -⟩ := exists_shapeAt? d
  rw [htext, List.cons_append, List.length_cons] at h
  exact ⟨fuel - 1, by omega⟩

theorem readsBack_null : ReadsBack .null := by
  intro fuel depth rest _ hfuel
  obtain ⟨fuel, rfl⟩ := exists_fuel hfuel
  simp [write, value?, skipSpace_cons, isSpace, word?]

theorem readsBack_bool (b : Bool) : ReadsBack (.bool b) := by
  intro fuel depth rest _ hfuel
  obtain ⟨fuel, rfl⟩ := exists_fuel hfuel
  cases b <;> simp [write, boolText, value?, skipSpace_cons, isSpace, word?]

theorem readsBack_int (n : Int) : ReadsBack (.int n) := by
  intro fuel depth rest hrest hfuel
  obtain ⟨fuel, rfl⟩ := exists_fuel hfuel
  rw [write, value?_int n fuel depth hrest, depth_int, if_pos (Nat.zero_le _)]
  rfl

theorem readsBack_real (x : Double) : ReadsBack (.real x) := by
  intro fuel depth rest hrest hfuel
  cases hx : x.isFinite with
  | false =>
    have htext : write (.real x) = write .null := by simp [write, realText, hx]
    have hvalue : (Datum.real x).reread = Datum.null := by simp [Datum.reread, hx]
    rw [htext] at hfuel ⊢
    rw [readsBack_null fuel depth rest hrest hfuel, hvalue]
    rfl
  | true =>
    obtain ⟨fuel, rfl⟩ := exists_fuel hfuel
    rw [write, value?_real hx fuel depth hrest, depth_real, if_pos (Nat.zero_le _), Datum.reread,
      if_pos hx]

theorem readsBack_text (s : String) : ReadsBack (.text s) := by
  intro fuel depth rest _ hfuel
  obtain ⟨fuel, rfl⟩ := exists_fuel hfuel
  have htext : (write (.text s)).toList ++ rest =
      '"' :: (s.toList.flatMap escaped ++ '"' :: rest) := by
    rw [write, toList_stringText]
    simp
  rw [htext, depth_text, if_pos (Nat.zero_le _)]
  simp [value?, skipSpace_cons, isSpace, string?_flatMap]

/-! ## Containers -/

section Items

variable {d : Datum} {fuel depth : Nat} {rest : List Char} (hd : ReadsBack d)
include hd

theorem items?_last (hfuel : 2 * ((write d).toList ++ ']' :: rest).length ≤ fuel) :
    items? (fuel + 1) depth ((write d).toList ++ ']' :: rest) =
      if d.depth ≤ depth then some ([d.reread], rest) else none := by
  rw [items?, hd fuel depth _ (by simp [Ends]) hfuel]
  split <;> simp [skipSpace_cons, isSpace]

theorem items?_comma (hfuel : 2 * ((write d).toList ++ ',' :: rest).length ≤ fuel) :
    items? (fuel + 1) depth ((write d).toList ++ ',' :: rest) =
      if d.depth ≤ depth then
        (items? fuel depth rest).map fun (ds, rest) => (d.reread :: ds, rest)
      else none := by
  rw [items?, hd fuel depth _ (by simp [Ends]) hfuel]
  split
  · simp only [Option.bind_eq_bind, Option.bind_some,
      skipSpace_cons (show isSpace ',' = false by decide)]
    cases items? fuel depth rest <;> rfl
  · rfl

end Items

theorem items?_following (rest : List Char) (depth : Nat) {d : Datum} {items : List Datum}
    (h : ∀ e ∈ d :: items, ReadsBack e) {fuel : Nat}
    (hfuel : 2 * ((write d).toList ++
      following (fun e => (write e).toList) ']' rest items).length < fuel) :
    items? fuel depth ((write d).toList ++
        following (fun e => (write e).toList) ']' rest items) =
      if ∀ e ∈ d :: items, e.depth ≤ depth then some ((d :: items).map reread, rest) else none := by
  induction items generalizing d fuel with
  | nil =>
    obtain ⟨fuel, rfl⟩ := Nat.exists_eq_succ_of_ne_zero (Nat.ne_zero_of_lt hfuel)
    rw [following, items?_last (h d List.mem_cons_self) (Nat.lt_succ_iff.1 hfuel)]
    simp
  | cons e items ih =>
    obtain ⟨fuel, rfl⟩ := Nat.exists_eq_succ_of_ne_zero (Nat.ne_zero_of_lt hfuel)
    obtain ⟨hd, hitems⟩ := List.forall_mem_cons.1 h
    rw [following, items?_comma hd (Nat.lt_succ_iff.1 hfuel), ih hitems]
    · simp only [List.forall_mem_cons (a := d), ite_and]
      refine if_congr Iff.rfl ?_ rfl
      split <;> rfl
    · simp only [following, List.length_append, List.length_cons] at hfuel ⊢
      omega

section Members

variable {m : String × Datum} {fuel depth : Nat} {rest : List Char} (hm : ReadsBack m.2)
include hm

/-- A name and a colon are taken off, then the value is read. -/
theorem members?_memberText (hrest : Ends rest)
    (hfuel : 2 * ((memberText m).toList ++ rest).length ≤ fuel) :
    members? (fuel + 1) depth ((memberText m).toList ++ rest) =
      if m.2.depth ≤ depth then do
        match skipSpace rest with
        | '}' :: rest => some ([(m.1, m.2.reread)], rest)
        | ',' :: rest => do
          let (ms, rest) ← members? fuel depth rest
          some ((m.1, m.2.reread) :: ms, rest)
        | _ => none
      else none := by
  have htext : (memberText m).toList ++ rest =
      '"' :: (m.1.toList.flatMap escaped ++ '"' :: (':' :: ((write m.2).toList ++ rest))) := by
    simp [memberText, toList_stringText]
  have hvalue := hm fuel depth rest hrest (by
    rw [htext] at hfuel
    simp only [List.length_append, List.length_cons] at hfuel ⊢
    omega)
  rw [htext, members?]
  simp only [skipSpace_cons (show isSpace '"' = false by decide),
    skipSpace_cons (show isSpace ':' = false by decide), string?_flatMap, Option.bind_eq_bind,
    Option.bind_some, hvalue]
  split <;> rfl

theorem members?_last (hfuel : 2 * ((memberText m).toList ++ '}' :: rest).length ≤ fuel) :
    members? (fuel + 1) depth ((memberText m).toList ++ '}' :: rest) =
      if m.2.depth ≤ depth then some ([(m.1, m.2.reread)], rest) else none := by
  rw [members?_memberText hm (by simp [Ends]) hfuel]
  simp [skipSpace_cons, isSpace]

theorem members?_comma (hfuel : 2 * ((memberText m).toList ++ ',' :: rest).length ≤ fuel) :
    members? (fuel + 1) depth ((memberText m).toList ++ ',' :: rest) =
      if m.2.depth ≤ depth then
        (members? fuel depth rest).map fun (ms, rest) => ((m.1, m.2.reread) :: ms, rest)
      else none := by
  rw [members?_memberText hm (by simp [Ends]) hfuel]
  simp only [skipSpace_cons (show isSpace ',' = false by decide)]
  split
  · cases members? fuel depth rest <;> rfl
  · rfl

end Members

theorem members?_following (rest : List Char) (depth : Nat) {m : String × Datum}
    {ms : List (String × Datum)} (h : ∀ e ∈ m :: ms, ReadsBack e.2) {fuel : Nat}
    (hfuel : 2 * ((memberText m).toList ++
      following (fun e => (memberText e).toList) '}' rest ms).length < fuel) :
    members? fuel depth ((memberText m).toList ++
        following (fun e => (memberText e).toList) '}' rest ms) =
      if ∀ e ∈ m :: ms, e.2.depth ≤ depth then
        some ((m :: ms).map fun e => (e.1, e.2.reread), rest)
      else none := by
  induction ms generalizing m fuel with
  | nil =>
    obtain ⟨fuel, rfl⟩ := Nat.exists_eq_succ_of_ne_zero (Nat.ne_zero_of_lt hfuel)
    rw [following, members?_last (h m List.mem_cons_self) (Nat.lt_succ_iff.1 hfuel)]
    simp
  | cons e ms ih =>
    obtain ⟨fuel, rfl⟩ := Nat.exists_eq_succ_of_ne_zero (Nat.ne_zero_of_lt hfuel)
    obtain ⟨hm, hms⟩ := List.forall_mem_cons.1 h
    rw [following, members?_comma hm (Nat.lt_succ_iff.1 hfuel), ih hms]
    · simp only [List.forall_mem_cons (a := m), ite_and]
      refine if_congr Iff.rfl ?_ rfl
      split <;> rfl
    · simp only [following, List.length_append, List.length_cons] at hfuel ⊢
      omega

theorem value?_bracket {c : Char} (hspace : isSpace c = false) (hclose : c ≠ ']')
    (fuel depth : Nat) (cs : List Char) :
    value? (fuel + 1) (depth + 1) ('[' :: c :: cs) =
      (items? fuel depth (c :: cs)).map fun (ds, rest) => (.list ds, rest) := by
  rw [value?.eq_def]
  simp only [skipSpace_cons (show isSpace '[' = false by decide), skipSpace_cons hspace]
  simp [hclose]

theorem value?_brace {c : Char} (hspace : isSpace c = false) (hclose : c ≠ '}')
    (fuel depth : Nat) (cs : List Char) :
    value? (fuel + 1) (depth + 1) ('{' :: c :: cs) =
      (members? fuel depth (c :: cs)).map fun (ms, rest) => (.record ms, rest) := by
  rw [value?.eq_def]
  simp only [skipSpace_cons (show isSpace '{' = false by decide), skipSpace_cons hspace]
  simp [hclose]

theorem readsBack_list {items : List Datum} (h : ∀ d ∈ items, ReadsBack d) :
    ReadsBack (.list items) := by
  intro fuel depth rest _ hfuel
  obtain ⟨fuel, rfl⟩ := exists_fuel hfuel
  rw [toList_write_list] at hfuel ⊢
  cases depth with
  | zero => simp [value?, skipSpace_cons, isSpace, Datum.depth]
  | succ depth =>
    simp only [depth_list_le_iff]
    cases items with
    | nil => simp [enclosed, value?, skipSpace_cons, isSpace]
    | cons d items =>
      have hitems := items?_following rest depth h
        (show _ < fuel by
          simp only [enclosed, List.length_append, List.length_cons] at hfuel ⊢
          omega)
      obtain ⟨c, cs, htext, hshape⟩ := exists_shapeAt? d
      have hclose : c ≠ ']' := by
        rintro rfl
        exact absurd hshape (by decide)
      rw [enclosed, htext, List.cons_append, value?_bracket (isSpace_of_shapeAt? hshape) hclose,
        ← List.cons_append, ← htext, hitems, reread_list]
      split <;> rfl

theorem readsBack_record {ms : List (String × Datum)} (h : ∀ m ∈ ms, ReadsBack m.2) :
    ReadsBack (.record ms) := by
  intro fuel depth rest _ hfuel
  obtain ⟨fuel, rfl⟩ := exists_fuel hfuel
  rw [toList_write_record] at hfuel ⊢
  cases depth with
  | zero => simp [value?, skipSpace_cons, isSpace, Datum.depth]
  | succ depth =>
    simp only [depth_record_le_iff]
    cases ms with
    | nil => simp [enclosed, value?, skipSpace_cons, isSpace]
    | cons m ms =>
      have hms := members?_following rest depth h
        (show _ < fuel by
          simp only [enclosed, List.length_append, List.length_cons] at hfuel ⊢
          omega)
      have htext : ∃ cs, (memberText m).toList = '"' :: cs := by
        simp [memberText, toList_stringText]
      obtain ⟨cs, htext⟩ := htext
      rw [enclosed, htext, List.cons_append, value?_brace (by decide) (by decide),
        ← List.cons_append, ← htext, hms, reread_record]
      split <;> rfl

mutual

theorem readsBack : ∀ d : Datum, ReadsBack d
  | .null => readsBack_null
  | .bool b => readsBack_bool b
  | .int n => readsBack_int n
  | .real x => readsBack_real x
  | .text s => readsBack_text s
  | .list items => readsBack_list (readsBack_items items)
  | .record ms => readsBack_record (readsBack_members ms)

theorem readsBack_items : ∀ items : List Datum, ∀ d ∈ items, ReadsBack d
  | [] => by simp
  | d :: rest => List.forall_mem_cons.2 ⟨readsBack d, readsBack_items rest⟩

theorem readsBack_members : ∀ ms : List (String × Datum), ∀ m ∈ ms, ReadsBack m.2
  | [] => by simp
  | (_, d) :: rest => List.forall_mem_cons.2 ⟨readsBack d, readsBack_members rest⟩

end

/-- The text of a value is read as this value with its numbers read anew, unless it has more
containers inside one another than a reader opens. -/
theorem read?_write (d : Datum) :
    read? (write d) = if d.depth ≤ maxDepth then some d.reread else none := by
  have hread := readsBack d (2 * (write d).toList.length + 2) maxDepth [] (by simp [Ends]) (by simp)
  rw [List.append_nil] at hread
  rw [read?, hread]
  split <;> simp_all [skipSpace]

end Json

end Rollup
