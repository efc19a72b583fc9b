/-
Results read back from the texts they are kept as. A text has everything of a result but three
things: a decimal that is not finite cannot be read, one that is finite is read as the number its
digits give, and a leap second within a minute turns into the second behind it. A result comes back
exactly when it has none of these that matter.
-/
import Rollup.Proofs.Calendar.Stored
import Rollup.Proofs.Json.ReadBack
import Rollup.Proofs.Query.ReadBack
import Rollup.Proofs.Result.Alignment
import Rollup.Result.Stored

namespace Rollup

/-! ## Values under keys -/

namespace Keyed

variable {α : Type}

/-- One value to a key, the last one given, where the first one stood. -/
def collect (entries : List (String × α)) : List (String × α) :=
  entries.foldl (fun done e => put e.1 e.2 done) []

theorem map_fst_put (key : String) (a : α) (entries : List (String × α)) :
    (put key a entries).map Prod.fst =
      if key ∈ entries.map Prod.fst then entries.map Prod.fst
      else entries.map Prod.fst ++ [key] := by
  induction entries with
  | nil => rfl
  | cons e rest ih =>
    obtain ⟨k, b⟩ := e
    rw [put]
    cases hk : k == key with
    | true =>
      rw [beq_iff_eq] at hk
      simp [hk]
    | false =>
      have hne : key ≠ k := fun h => by simp [h] at hk
      simp only [Bool.false_eq_true, if_false, List.map_cons, ih, List.mem_cons, hne, false_or]
      split <;> rfl

theorem nodup_put (key : String) (a : α) {entries : List (String × α)}
    (h : (entries.map Prod.fst).Nodup) : ((put key a entries).map Prod.fst).Nodup := by
  rw [map_fst_put]
  split
  case isTrue => exact h
  case isFalse hfresh =>
    refine List.nodup_append.2 ⟨h, List.nodup_singleton key, fun k hk l hl heq => hfresh ?_⟩
    rwa [← List.mem_singleton.1 hl, ← heq]

theorem nodup_foldl_put (entries : List (String × α)) {done : List (String × α)}
    (h : (done.map Prod.fst).Nodup) :
    ((entries.foldl (fun done e => put e.1 e.2 done) done).map Prod.fst).Nodup := by
  induction entries generalizing done with
  | nil => exact h
  | cons e rest ih => exact ih (nodup_put e.1 e.2 h)

theorem foldl_put_of_nodup {entries done : List (String × α)}
    (h : ((done ++ entries).map Prod.fst).Nodup) :
    entries.foldl (fun done e => put e.1 e.2 done) done = done ++ entries := by
  induction entries generalizing done with
  | nil => rw [List.foldl_nil, List.append_nil]
  | cons e rest ih =>
    have hfresh : ∀ d ∈ done, d.1 ≠ e.1 := by
      intro d hd heq
      rw [List.map_append, List.nodup_append] at h
      exact h.2.2 d.1 (List.mem_map.2 ⟨d, hd, rfl⟩) e.1 (by simp) heq
    rw [List.append_cons] at h
    rw [List.foldl_cons, put_of_fresh hfresh, ih h, List.append_assoc, List.singleton_append]

theorem collect_eq_self_iff {entries : List (String × α)} :
    collect entries = entries ↔ (entries.map Prod.fst).Nodup := by
  constructor
  · intro h
    rw [← h]
    exact nodup_foldl_put entries List.nodup_nil
  · intro h
    exact foldl_put_of_nodup (show (([] ++ entries).map Prod.fst).Nodup from h)

end Keyed

/-! ## Cells -/

theorem Datum.int64?_toInt (n : Int64) : Datum.int64? (.int n.toInt) = some n := by
  have hmin : Int64.minValue.toInt ≤ n.toInt := Int64.minValue_le_toInt n
  have hmax : n.toInt ≤ Int64.maxValue.toInt := Int64.toInt_le n
  rw [Datum.int64?, if_pos (Bool.and_eq_true_iff.2 ⟨decide_eq_true hmin, decide_eq_true hmax⟩),
    Int64.ofInt_toInt]

theorem Bucket.ofDatum?_stored (b : Bucket) :
    ofDatum? (.record [("grain", .text b.grain.name), ("value", .text b.start.text)]) =
      some { b with start := b.start.reread } := by
  have hgrain := b.grain.named?_name
  have hstart := b.start.ofText?_text
  simp_all [ofDatum?, Datum.fields?, Datum.recordFields?, Datum.Fields.required?, Datum.text?,
    List.lookup_cons]

namespace Cell

/-- Whether the stored form of a cell can be read. -/
def Readable : Cell → Prop
  | decimal x => x.isFinite = true ∧ x.reread.isFinite = true
  | _ => True

instance (c : Cell) : Decidable c.Readable :=
  match c with
  | decimal x => inferInstanceAs (Decidable (x.isFinite = true ∧ x.reread.isFinite = true))
  | null | integer _ | text _ | boolean _ | time _ | member _ => inferInstanceAs (Decidable True)

/-- The cell that the stored form of a cell is read as, if it can be read. -/
def reread : Cell → Cell
  | decimal x => decimal x.reread
  | time b => time { b with start := b.start.reread }
  | c => c

/-- Whether the stored form of a cell gives it back. -/
def Kept : Cell → Prop
  | decimal x => x.isFinite = true ∧ x.reread = x
  | time b => 1000000000 ≤ b.start.nano → b.start.secondOfMinute = 59
  | _ => True

theorem readable_and_reread_iff {c : Cell} : c.Readable ∧ c.reread = c ↔ c.Kept := by
  cases c with
  | decimal x =>
    simp only [Readable, reread, Kept, decimal.injEq]
    exact ⟨fun ⟨h, heq⟩ => ⟨h.1, heq⟩, fun ⟨h, heq⟩ => ⟨⟨h, by rwa [heq]⟩, heq⟩⟩
  | time b =>
    obtain ⟨grain, start⟩ := b
    simp [Readable, reread, Kept, Timestamp.reread_eq_iff]
  | _ => simp [Readable, reread, Kept]

theorem ofDatum?_of_content {c : Cell} {d : Datum} (h : c.content? = some d) :
    ofDatum? c.toDatum.reread = ofContent? c.kindName (some d.reread) := by
  simp [toDatum, h, ofDatum?, Datum.recordFields?, Datum.Fields.required?, Datum.text?,
    List.lookup_cons]

/-- A cell is read from its stored form, unless it is a decimal that is not finite or does not stay
so. -/
theorem ofDatum?_reread (c : Cell) :
    ofDatum? c.toDatum.reread = if c.Readable then some c.reread else none := by
  cases c with
  | null =>
    simp [toDatum, content?, kindName, ofDatum?, Datum.recordFields?, Datum.Fields.required?,
      Datum.text?, List.lookup_cons, ofContent?, Readable, reread]
  | integer n =>
    rw [ofDatum?_of_content rfl, Datum.reread_int64, kindName, ofContent?, Datum.int64?_toInt]
    rfl
  | decimal x =>
    rw [ofDatum?_of_content rfl]
    cases hx : x.isFinite <;> cases hy : x.reread.isFinite <;>
      simp [Datum.reread, kindName, ofContent?, Datum.number?, Readable, reread, hx, hy]
  | text s => rw [ofDatum?_of_content rfl]; rfl
  | boolean b => rw [ofDatum?_of_content rfl]; rfl
  | time b =>
    rw [ofDatum?_of_content rfl]
    simp [kindName, ofContent?, Readable, reread, b.ofDatum?_stored]
  | member s => rw [ofDatum?_of_content rfl]; rfl

end Cell

/-! ## Rows -/

namespace Row

/-- Whether every cell of a row is read back. -/
def Readable (r : Row) : Prop :=
  ∀ e ∈ r.cells, e.2.Readable

instance (r : Row) : Decidable r.Readable :=
  inferInstanceAs (Decidable (∀ e ∈ r.cells, e.2.Readable))

/-- The row that the stored form of a row is read as, if its cells can be read. -/
def reread (r : Row) : Row :=
  { r with cells := Keyed.collect (r.cells.map fun e => (e.1, e.2.reread)) }

/-- Whether the stored form of a row gives it back. -/
def Kept (r : Row) : Prop :=
  (r.cells.map Prod.fst).Nodup ∧ ∀ e ∈ r.cells, e.2.Kept

theorem readable_and_reread_iff {r : Row} : r.Readable ∧ r.reread = r ↔ r.Kept := by
  have hnames : (r.cells.map fun e => (e.1, e.2.reread)).map Prod.fst = r.cells.map Prod.fst := by
    rw [List.map_map]
    rfl
  have hcells : r.reread = r ↔
      Keyed.collect (r.cells.map fun e => (e.1, e.2.reread)) = r.cells := by
    obtain ⟨id, cells⟩ := r
    simp [reread]
  have hmap : (r.cells.map fun e => (e.1, e.2.reread)) = r.cells ↔
      ∀ e ∈ r.cells, e.2.reread = e.2 := by
    simp only [map_eq_self_iff, Prod.ext_iff, true_and]
  have hcollect : Keyed.collect (r.cells.map fun e => (e.1, e.2.reread)) = r.cells ↔
      (r.cells.map Prod.fst).Nodup ∧ ∀ e ∈ r.cells, e.2.reread = e.2 := by
    rw [← hmap]
    constructor
    · intro h
      have hnodup : (r.cells.map Prod.fst).Nodup := by
        rw [← h]
        exact Keyed.nodup_foldl_put _ List.nodup_nil
      rw [Keyed.collect_eq_self_iff.2 (hnames ▸ hnodup)] at h
      exact ⟨hnodup, h⟩
    · rintro ⟨hnodup, h⟩
      rw [h, Keyed.collect_eq_self_iff]
      exact hnodup
  rw [hcells, hcollect, and_left_comm, Readable, ← forall₂_and]
  simp only [Cell.readable_and_reread_iff, Kept]

theorem foldlM_ofDatum? (cells done : List (String × Cell)) :
    (cells.map fun e => (e.1, e.2.toDatum.reread)).foldlM
      (fun done (e : String × Datum) =>
        (Cell.ofDatum? e.2).map fun c => Keyed.put e.1 c done) done =
      if ∀ e ∈ cells, e.2.Readable then
        some ((cells.map fun e => (e.1, e.2.reread)).foldl
          (fun done e => Keyed.put e.1 e.2 done) done)
      else none := by
  induction cells generalizing done with
  | nil => rfl
  | cons e rest ih =>
    rw [List.map_cons, List.foldlM_cons, Cell.ofDatum?_reread]
    simp only [List.forall_mem_cons, ite_and]
    split
    · exact ih _
    · rfl

theorem ofDatum?_of_fields {d : Datum} {fs : Datum.Fields} {id : UInt64}
    {cells : Option (List (String × Cell))} (hfields : Datum.fields? ["id", "values"] d = some fs)
    (hid : fs.required? "id" Datum.word? = some id)
    (hcells : fs.required? "values" cellsOfDatum? = cells) :
    ofDatum? d = cells.map fun cells => ⟨id, cells⟩ := by
  rw [ofDatum?, hfields, Option.bind_eq_bind, Option.bind_some, hid, Option.bind_eq_bind,
    Option.bind_some, hcells]
  cases cells <;> rfl

theorem ofDatum?_reread (r : Row) :
    ofDatum? r.toDatum.reread = if r.Readable then some r.reread else none := by
  let ms : Datum.Fields := [("id", .int r.id.toNat),
    ("values", .record (r.cells.map fun e => (e.1, e.2.toDatum.reread)))]
  have hdatum : r.toDatum.reread = .record ms := by
    simp [toDatum, Datum.reread_word, ms]
  have hfields : Datum.fields? ["id", "values"] (.record ms) = some ms := rfl
  have hlookup : ms.lookup "id" = some (.int r.id.toNat) ∧ ms.lookup "values" =
      some (.record (r.cells.map fun e => (e.1, e.2.toDatum.reread))) := ⟨rfl, rfl⟩
  have hid : ms.required? "id" Datum.word? = some r.id := by
    rw [Datum.Fields.required?, hlookup.1, Option.bind_some, Datum.word?_toNat]
  have hcells : ms.required? "values" cellsOfDatum? =
      if r.Readable then some r.reread.cells else none := by
    rw [Datum.Fields.required?, hlookup.2, Option.bind_some]
    exact foldlM_ofDatum? r.cells []
  rw [hdatum, ofDatum?_of_fields hfields hid hcells]
  split <;> rfl

end Row

/-! ## Results -/

namespace QueryResult

/-- Whether every row of a result is read back. -/
def Readable (r : QueryResult) : Prop :=
  ∀ row ∈ r.rows, row.Readable

instance (r : QueryResult) : Decidable r.Readable :=
  inferInstanceAs (Decidable (∀ row ∈ r.rows, row.Readable))

/-- The result that the text of a result is read as, if its cells can be read. -/
def reread (r : QueryResult) : QueryResult :=
  { r with rows := r.rows.map Row.reread }

/-- Whether the text of a result gives it back. -/
def Kept (r : QueryResult) : Prop :=
  ∀ row ∈ r.rows, row.Kept

theorem readable_and_reread_iff {r : QueryResult} : r.Readable ∧ r.reread = r ↔ r.Kept := by
  have hrows : r.reread = r ↔ ∀ row ∈ r.rows, row.reread = row := by
    rw [← map_eq_self_iff]
    obtain ⟨rows, total⟩ := r
    simp [reread]
  rw [hrows, Readable, ← forall₂_and]
  simp only [Row.readable_and_reread_iff, Kept]

theorem ofDatum?_reread (r : QueryResult) :
    ofDatum? r.toDatum.reread = if r.Readable then some r.reread else none := by
  have hitems : Datum.list? Row.ofDatum? (.list (r.rows.map fun row => row.toDatum.reread)) =
      if r.Readable then some r.reread.rows else none :=
    Datum.list?_map_ite fun row _ => row.ofDatum?_reread
  let ms : Datum.Fields := ("rows", .list (r.rows.map fun row => row.toDatum.reread)) ::
    r.total.toList.map fun n => ("page_total", .int n.toNat)
  have hdatum : r.toDatum.reread = .record ms := by
    obtain ⟨rows, total⟩ := r
    cases total <;> simp [toDatum, Datum.reread_word, ms]
  have hfields : Datum.fields? ["rows", "page_total"] (.record ms) = some ms := by
    obtain ⟨rows, total⟩ := r
    cases total <;> rfl
  have hrows : ms.required? "rows" (Datum.list? Row.ofDatum?) =
      if r.Readable then some r.reread.rows else none := hitems
  have htotal : ms.optional? "page_total" Datum.word? = some r.total := by
    refine Datum.Fields.optional?_of_lookup ?_ Datum.nullable?_word
    obtain ⟨rows, total⟩ := r
    cases total <;> rfl
  rw [hdatum, ofDatum?, hfields]
  simp only [Option.bind_eq_bind, Option.bind_some, hrows, htotal]
  split <;> rfl

theorem depth_toDatum_le (r : QueryResult) : r.toDatum.depth ≤ 6 := by
  have hcell (c : Cell) : c.toDatum.depth ≤ 2 := by
    cases c <;> simp [Cell.toDatum, Cell.content?, Datum.depth_record_le_iff]
  have hrow (row : Row) : row.toDatum.depth ≤ 4 := by
    have hvalues : ∀ e ∈ row.cells.map fun e => (e.1, e.2.toDatum), e.2.depth ≤ 2 :=
      List.forall_mem_map.2 fun e _ => hcell e.2
    simp only [Row.toDatum, Datum.depth_record_le_iff, List.forall_mem_cons, Datum.depth_int]
    exact ⟨Nat.zero_le _, hvalues, by simp⟩
  obtain ⟨rows, total⟩ := r
  have hrows : ∀ d ∈ rows.map Row.toDatum, d.depth ≤ 4 :=
    List.forall_mem_map.2 fun row _ => hrow row
  cases total <;>
    simpa [toDatum, Datum.depth_record_le_iff, Datum.depth_list_le_iff] using hrows

/-- A result is read from its text when its cells can be read, and then as the same result with its
cells read anew. -/
theorem ofJson?_json (r : QueryResult) :
    ofJson? r.json = if r.Readable then some r.reread else none := by
  have hdepth : r.toDatum.depth ≤ Json.maxDepth := r.depth_toDatum_le.trans (by decide)
  rw [ofJson?, json, Json.read?_write, if_pos hdepth, Option.bind_some, ofDatum?_reread]

end QueryResult

end Rollup
