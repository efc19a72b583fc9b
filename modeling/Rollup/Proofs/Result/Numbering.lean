/-
The numbers of rows. Rows are had one by one: a row of a cursor that fits its columns takes the next
number, and one that does not is passed over and takes none. So all rows of a cursor are met in
their order, good or bad; but the number of a row is its place only as long as no row before it was
bad, and behind a bad row it falls short.
-/
import Rollup.Proofs.Result.Alignment

namespace Rollup

/-- The rows of a cursor while they are asked for one by one: what is still to be read, the number
of the next good row, and whether there is an end to it. -/
structure Rows where
  columns : List (OutputColumn × Nat)
  reads : List (Except ExecutionError (List RawCell))
  nextId : UInt64 := 0
  done : Bool := false

namespace Rows

/-- The next row, good or bad, and what is left behind it. -/
def next (r : Rows) : Option (Except HydrationError Row) × Rows :=
  if r.done then (none, r)
  else match r.reads with
    | [] => (none, { r with done := true })
    | .error e :: rest => (some (.error (.execution e)), { r with reads := rest, done := true })
    | .ok row :: rest =>
      match Hydration.cellsOf row [] r.columns with
      | .error e => (some (.error e), { r with reads := rest })
      | .ok cells =>
        (some (.ok ⟨r.nextId, cells⟩), { r with reads := rest, nextId := r.nextId + 1 })

/-- What is left behind `n` rows. -/
def after (r : Rows) (n : Nat) : Rows :=
  (fun r => r.next.2)^[n] r

/-- The row behind `n` rows. -/
def item (r : Rows) (n : Nat) : Option (Except HydrationError Row) :=
  (r.after n).next.1

variable {r : Rows} {n : Nat}

theorem after_add (r : Rows) (m n : Nat) : r.after (m + n) = (r.after m).after n := by
  rw [Nat.add_comm]
  exact Function.iterate_add_apply _ n m r

theorem item_succ (r : Rows) (n : Nat) : r.item (n + 1) = r.next.2.item n :=
  rfl

/-- There is nothing behind the end. -/
theorem item_of_done (h : r.done = true) : r.item n = none := by
  have hnext : r.next = (none, r) := by rw [next, if_pos h]
  have hafter : r.after n = r := Function.iterate_fixed (by rw [hnext]) n
  rw [item, hafter, hnext]

/-- One by one the same rows are had as all at once, and none behind the last. -/
theorem item_eq_rowsFrom (columns : List (OutputColumn × Nat)) (id : UInt64)
    (reads : List (Except ExecutionError (List RawCell))) (n : Nat) :
    item ⟨columns, reads, id, false⟩ n = (Hydration.rowsFrom columns id reads)[n]? := by
  induction reads generalizing id n with
  | nil =>
    cases n with
    | zero => rfl
    | succ n => exact item_of_done (r := ⟨columns, [], id, true⟩) rfl
  | cons read reads ih =>
    cases read with
    | error e =>
      cases n with
      | zero => rfl
      | succ n => exact item_of_done (r := ⟨columns, reads, id, true⟩) rfl
    | ok row =>
      rw [Hydration.rowsFrom]
      cases hcells : Hydration.cellsOf row [] columns with
      | ok cells =>
        have hnext : next ⟨columns, .ok row :: reads, id, false⟩ =
            (some (.ok ⟨id, cells⟩), ⟨columns, reads, id + 1, false⟩) := by
          simp [next, hcells]
        cases n with
        | zero => exact congrArg Prod.fst hnext
        | succ n => rw [item_succ, hnext, List.getElem?_cons_succ, ih]
      | error e =>
        have hnext : next ⟨columns, .ok row :: reads, id, false⟩ =
            (some (.error e), ⟨columns, reads, id, false⟩) := by
          simp [next, hcells]
        cases n with
        | zero => exact congrArg Prod.fst hnext
        | succ n => rw [item_succ, hnext, List.getElem?_cons_succ, ih]

/-! ## Counting -/

/-- Whether every cell of a row fits its column. -/
def fits (ps : List (OutputColumn × Nat)) (row : List RawCell) : Bool :=
  (Hydration.cellsOf row [] ps).isOk

/-- How many of the first `n` rows are good. -/
def passed (ps : List (OutputColumn × Nat)) (rows : List (List RawCell)) (n : Nat) : Nat :=
  (rows.take n).countP (fits ps)

/-- What is left behind `n` of a cursor's rows: the others are still to be read, and as many numbers
are taken as rows were good. -/
def behind (ps : List (OutputColumn × Nat)) (rows : List (List RawCell)) (n : Nat) : Rows :=
  ⟨ps, (rows.drop n).map .ok, .ofNat (passed ps rows n), false⟩

variable {ps : List (OutputColumn × Nat)} {rows : List (List RawCell)}

theorem passed_succ (ps : List (OutputColumn × Nat)) (h : n < rows.length) :
    passed ps rows (n + 1) = passed ps rows n + (fits ps rows[n]).toNat := by
  rw [passed, List.take_succ_eq_append_getElem h, List.countP_append, List.countP_singleton, passed]
  cases fits ps rows[n] <;> rfl

theorem passed_le (ps : List (OutputColumn × Nat)) (rows : List (List RawCell)) (n : Nat) :
    passed ps rows n ≤ n :=
  List.countP_le_length.trans (List.length_take_le n rows)

/-- As many rows are good as there are when all of them are. -/
theorem passed_eq_iff (h : n ≤ rows.length) :
    passed ps rows n = n ↔ ∀ row ∈ rows.take n, fits ps row = true := by
  have hlength : (rows.take n).length = n := List.length_take_of_le h
  rw [passed, ← List.countP_eq_length, hlength]

/-- The next row is good or bad as it fits. It has the number of good rows before it, and is counted
when it is good itself. -/
theorem next_behind (ps : List (OutputColumn × Nat)) (h : n < rows.length) :
    (behind ps rows n).next =
      (some ((Hydration.cellsOf rows[n] [] ps).map (Row.mk (.ofNat (passed ps rows n)))),
        behind ps rows (n + 1)) := by
  have hfirst : (rows.drop n).map Except.ok =
      (.ok rows[n] :: (rows.drop (n + 1)).map .ok : List (Except ExecutionError _)) := by
    rw [List.drop_eq_getElem_cons h, List.map_cons]
  have hpassed := passed_succ ps h
  cases hcells : Hydration.cellsOf rows[n] [] ps with
  | ok cells =>
    rw [fits, hcells] at hpassed
    simp only [next, behind, hfirst, hcells, hpassed, Bool.false_eq_true, if_false]
    rw [UInt64.ofNat_add]
    rfl
  | error e =>
    rw [fits, hcells] at hpassed
    simp only [next, behind, hfirst, hcells, hpassed, Bool.false_eq_true, if_false]
    rfl

theorem after_behind (ps : List (OutputColumn × Nat)) (h : n ≤ rows.length) :
    (behind ps rows 0).after n = behind ps rows n := by
  induction n with
  | zero => rfl
  | succ n ih =>
    rw [after_add, ih (Nat.le_of_succ_le h)]
    exact congrArg Prod.snd (next_behind ps h)

theorem item_behind_length (ps : List (OutputColumn × Nat)) (rows : List (List RawCell)) (n : Nat) :
    (behind ps rows rows.length).item n = none := by
  rw [behind, List.drop_length]
  cases n with
  | zero => rfl
  | succ n => exact item_of_done (r := ⟨ps, [], _, true⟩) rfl

/-- One row is had for each row of the cursor, with the number of good rows before it. -/
theorem item_eq_map (ps : List (OutputColumn × Nat)) (rows : List (List RawCell)) (n : Nat) :
    item ⟨ps, rows.map .ok, 0, false⟩ n = rows[n]?.map fun row =>
      (Hydration.cellsOf row [] ps).map (Row.mk (.ofNat (passed ps rows n))) := by
  change (behind ps rows 0).item n = _
  rcases Nat.lt_or_ge n rows.length with hn | hn
  · rw [item, after_behind ps hn.le, next_behind ps hn, List.getElem?_eq_getElem hn,
      Option.map_some]
  · obtain ⟨m, rfl⟩ := Nat.exists_eq_add_of_le hn
    rw [item, after_add, after_behind ps le_rfl, List.getElem?_eq_none hn]
    exact item_behind_length ps rows m

/-- The number of a good row is its place when the rows before it are good, and else it is not. -/
theorem toNat_passed_iff (h : n ≤ rows.length) :
    (UInt64.ofNat (passed ps rows n)).toNat = n ↔
      n < 2 ^ 64 ∧ ∀ row ∈ rows.take n, fits ps row = true := by
  rw [UInt64.toNat_ofNat', ← passed_eq_iff h]
  have hle := passed_le ps rows n
  constructor
  · intro heq
    have hsmall := Nat.mod_lt (passed ps rows n) (Nat.two_pow_pos 64)
    have hmod := Nat.mod_le (passed ps rows n) (2 ^ 64)
    omega
  · rintro ⟨hsmall, heq⟩
    rw [heq, Nat.mod_eq_of_lt hsmall]

/-- The rows of a cursor, each good or bad and the good ones numbered. -/
def numbered (ps : List (OutputColumn × Nat)) (rows : List (List RawCell)) :
    List (Except HydrationError Row) :=
  rows.mapIdx fun n row =>
    (Hydration.cellsOf row [] ps).map (Row.mk (.ofNat (passed ps rows n)))

theorem rowsFrom_eq_numbered (ps : List (OutputColumn × Nat)) (rows : List (List RawCell)) :
    Hydration.rowsFrom ps 0 (rows.map .ok) = numbered ps rows :=
  List.ext_getElem? fun n => by
    rw [← item_eq_rowsFrom, item_eq_map, numbered, List.getElem?_mapIdx]

theorem exists_ok_numbered_iff {row : List RawCell} (h : rows[n]? = some row) :
    (∃ good, (numbered ps rows)[n]? = some (.ok good)) ↔ fits ps row = true := by
  rw [numbered, List.getElem?_mapIdx, h, Option.map_some, fits]
  cases Hydration.cellsOf row [] ps <;> simp [Except.map, Except.isOk, Except.toBool]

theorem forall_ok_numbered_iff (h : n ≤ rows.length) :
    (∀ k < n, ∃ good, (numbered ps rows)[k]? = some (.ok good)) ↔
      ∀ row ∈ rows.take n, fits ps row = true := by
  simp only [List.forall_mem_iff_getElem, List.getElem_take, List.length_take_of_le h]
  exact forall₂_congr fun k hk => exists_ok_numbered_iff (List.getElem?_eq_getElem (hk.trans_le h))

end Rows

/-- Rows whose labels cover the columns are had one by one in their order, each of them good or bad,
and nothing behind the last. A good row has its own cells, and for its number how many good rows
came before it: that is its place when every row before it was good, and it is not when some row
before it did not fit the columns. -/
theorem Hydrator.rows_numbered {columns : List OutputColumn} {labels : List String}
    (hlabels : ∀ c ∈ columns, c.label ∈ labels) (rows : List (List RawCell)) :
    ∃ ps items, Hydration.positions labels columns = .ok ps ∧
      (Hydrator.rows ⟨columns, some ⟨labels, rows.map .ok⟩⟩).1 = .ok items ∧
      (∀ n, Rows.item ⟨ps, rows.map .ok, 0, false⟩ n = items[n]?) ∧
      items.length = rows.length ∧
      (∀ k : Nat, items[k]? = rows[k]?.map fun row =>
        (Hydration.cellsOf row [] ps).map (Row.mk (.ofNat (Rows.passed ps rows k)))) ∧
      ∀ (k : Nat) row, items[k]? = some (.ok row) →
        (row.id.toNat = k ↔ k < 2 ^ 64 ∧ ∀ j < k, ∃ before, items[j]? = some (.ok before)) := by
  obtain ⟨ps, hps, -⟩ := Hydration.positions_of_mem hlabels
  have hrows : (Hydrator.rows ⟨columns, some ⟨labels, rows.map .ok⟩⟩).1 =
      .ok (Rows.numbered ps rows) := by
    simp only [Hydrator.rows, hps, Except.map, Rows.rowsFrom_eq_numbered]
  refine ⟨ps, _, hps, hrows, fun n => ?_, List.length_mapIdx, fun k => List.getElem?_mapIdx,
    fun k row hrow => ?_⟩
  · rw [Rows.item_eq_rowsFrom, Rows.rowsFrom_eq_numbered]
  · rw [Rows.numbered, List.getElem?_mapIdx, Option.map_eq_some_iff] at hrow
    obtain ⟨raw, hraw, hrow⟩ := hrow
    obtain ⟨hk, -⟩ := List.getElem?_eq_some_iff.1 hraw
    rw [Rows.forall_ok_numbered_iff hk.le, ← Rows.toNat_passed_iff hk.le]
    cases hcells : Hydration.cellsOf raw [] ps with
    | error e => rw [hcells] at hrow; cases hrow
    | ok cells => rw [hcells] at hrow; cases hrow; rfl

/-- A column of whole numbers. -/
def countColumn : OutputColumn :=
  { name := "n", label := "n", role := .metric, valueType := .integer }

/-- Of five and `x`, five is the first row and has the first number. -/
theorem Hydrator.rows_numbered_badLast :
    (∀ c ∈ [countColumn], c.label ∈ ["n"]) ∧
      ∃ items row, (Hydrator.rows ⟨[countColumn],
          some ⟨["n"], [[RawCell.int 5], [.text "x"]].map .ok⟩⟩).1 = .ok items ∧
        items.length = 2 ∧ items[0]? = some (.ok row) ∧ row.id.toNat = 0 := by
  have hlabels : ∀ c ∈ [countColumn], c.label ∈ ["n"] := by decide
  obtain ⟨ps, items, hps, hrows, -, hlength, hitems, hids⟩ :=
    Hydrator.rows_numbered hlabels [[RawCell.int 5], [.text "x"]]
  have hps : ps = [(countColumn, 0)] := Except.ok.inj (hps.symm.trans rfl)
  have hfirst : items[0]? = some (.ok ⟨0, [("n", .integer 5)]⟩) := by
    rw [hitems 0, hps]
    rfl
  exact ⟨hlabels, items, _, hrows, hlength, hfirst,
    (hids 0 _ hfirst).2 ⟨by decide, fun j hj => (Nat.not_lt_zero j hj).elim⟩⟩

/-- Behind `x`, which is no number, five is the second row, but has the number of the first. -/
theorem Hydrator.rows_badFirst :
    ∃ items row, (Hydrator.rows ⟨[countColumn],
        some ⟨["n"], [[RawCell.text "x"], [.int 5]].map .ok⟩⟩).1 = .ok items ∧
      items[0]? = some (.error (.invalidValue "n" (.notNumeric "x"))) ∧
      items[1]? = some (.ok row) ∧ row.cells = [("n", .integer 5)] ∧
      row.id.toNat = 0 ∧ row.id.toNat ≠ 1 :=
  ⟨_, ⟨0, [("n", .integer 5)]⟩, rfl, rfl, rfl, rfl, rfl, by decide⟩

end Rollup
