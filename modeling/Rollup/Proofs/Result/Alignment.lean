/-
What is compiled fits what is read. The main statement selects one expression for each projection,
under the label that the column of the projection is looked up by; the labels are distinct, and with
them the names. So whatever order a database returns the labels in, every cell is found, and a row
has the cells of the projections in their order.
-/
import Rollup.Result.Hydration
import Rollup.Proofs.Compile.Placeholders
import Rollup.Proofs.Compile.Shape
import Rollup.Proofs.Compile.Sources

namespace Rollup

/-! ## Cells by their labels -/

theorem Keyed.put_of_fresh {α : Type} {key : String} {a : α} {entries : List (String × α)}
    (h : ∀ e ∈ entries, e.1 ≠ key) : put key a entries = entries ++ [(key, a)] := by
  induction entries with
  | nil => rfl
  | cons e rest ih =>
    obtain ⟨hne, hrest⟩ := List.forall_mem_cons.1 h
    rw [put, beq_false_of_ne hne, if_neg Bool.false_ne_true, ih hrest, List.cons_append]

namespace Hydration

/-- The cell of a row under a label, null where the row ends before. -/
def under (labels : List String) (row : List RawCell) (label : String) : RawCell :=
  ((labels.zip row).lookup label).getD .null

/-- A row as cells: one for each column, under the column's name, from the cell under its label. -/
def ReadsAs (labels : List String) (columns : List OutputColumn) (row : List RawCell)
    (cells : List (String × Cell)) : Prop :=
  List.Forall₂ (fun c cell => cell.1 = c.name ∧ c.hydrate (under labels row c.label) = .ok cell.2)
    columns cells

/-- Every column beside the place of its label. -/
def Positioned (labels : List String) (columns : List OutputColumn)
    (positions : List (OutputColumn × Nat)) : Prop :=
  List.Forall₂ (fun c p => p.1 = c ∧ labels.findIdx? (· == c.label) = some p.2) columns positions

variable {labels : List String} {columns : List OutputColumn} {row : List RawCell}
  {ps : List (OutputColumn × Nat)}

theorem getD_of_findIdx? {label : String} {i : Nat}
    (h : labels.findIdx? (· == label) = some i) : row.getD i .null = under labels row label := by
  induction labels generalizing row i with
  | nil => cases h
  | cons l labels ih =>
    rw [List.findIdx?_cons] at h
    cases row with
    | nil => rfl
    | cons cell row =>
      split at h
      · rename_i hl
        cases h
        rw [beq_iff_eq] at hl
        simp [under, hl]
      · rename_i hl
        obtain ⟨j, hj, rfl⟩ := Option.map_eq_some_iff.1 h
        have hne : (label == l) = false := beq_false_of_ne fun heq => hl (by simp [heq])
        rw [List.getD_cons_succ, ih hj, under, under, List.zip_cons_cons, List.lookup_cons, hne]

/-- Columns whose labels are all there are all found. -/
theorem positions_of_mem (h : ∀ c ∈ columns, c.label ∈ labels) :
    ∃ ps, positions labels columns = .ok ps ∧ Positioned labels columns ps := by
  induction columns with
  | nil => exact ⟨[], rfl, .nil⟩
  | cons c columns ih =>
    obtain ⟨hc, hrest⟩ := List.forall_mem_cons.1 h
    obtain ⟨ps, hps, hpositioned⟩ := ih hrest
    have hfound : (labels.findIdx? (· == c.label)).isSome = true := by simpa using hc
    obtain ⟨i, hi⟩ := Option.isSome_iff_exists.1 hfound
    refine ⟨(c, i) :: ps, ?_, .cons ⟨rfl, hi⟩ hpositioned⟩
    rw [positions, List.mapM_cons, hi]
    change (positions labels columns).bind (fun ps => .ok ((c, i) :: ps)) = _
    rw [hps]
    rfl

/-- Columns of different names, none of which has a cell already, add their cells in order. -/
theorem cellsOf_ok_iff (hps : Positioned labels columns ps) (hnames : (columns.map (·.name)).Nodup)
    {done cells : List (String × Cell)}
    (hfresh : ∀ e ∈ done, ∀ c ∈ columns, e.1 ≠ c.name) :
    cellsOf row done ps = .ok cells ↔ ∃ new, cells = done ++ new ∧
      ReadsAs labels columns row new := by
  induction hps generalizing done with
  | nil =>
    rw [cellsOf, Except.ok.injEq]
    constructor
    · rintro rfl
      exact ⟨[], (List.append_nil _).symm, .nil⟩
    · rintro ⟨new, rfl, hreads⟩
      cases hreads
      exact (List.append_nil _).symm
  | @cons c p columns ps hp _ ih =>
    obtain ⟨c', i⟩ := p
    obtain ⟨rfl, hi⟩ := hp
    rw [List.map_cons, List.nodup_cons] at hnames
    have hown : ∀ e ∈ done, e.1 ≠ c'.name := fun e he => hfresh e he _ List.mem_cons_self
    rw [cellsOf, getD_of_findIdx? hi]
    cases hcell : c'.hydrate (under labels row c'.label) with
    | error fault =>
      constructor
      · rintro ⟨⟩
      · rintro ⟨_, -, hreads⟩
        cases hreads with
        | cons h _ => cases hcell.symm.trans h.2
    | ok cell =>
      have hfresh' : ∀ e ∈ done ++ [(c'.name, cell)], ∀ c ∈ columns, e.1 ≠ c.name := by
        intro e he c hc
        rcases List.mem_append.1 he with he | he
        · exact hfresh e he c (List.mem_cons_of_mem _ hc)
        · rw [List.mem_singleton.1 he]
          exact fun heq => hnames.1 (List.mem_map.2 ⟨c, hc, heq.symm⟩)
      dsimp only
      rw [Keyed.put_of_fresh hown, ih hnames.2 hfresh']
      constructor
      · rintro ⟨new, rfl, hreads⟩
        exact ⟨_, List.append_assoc _ _ _, .cons ⟨rfl, hcell⟩ hreads⟩
      · rintro ⟨_, rfl, hreads⟩
        cases hreads with
        | @cons _ e _ new h hreads =>
          obtain ⟨name, cell'⟩ := e
          obtain ⟨rfl, h⟩ := h
          cases hcell.symm.trans h
          exact ⟨new, List.append_cons _ _ _, hreads⟩

/-- A good row is read from the row at its place, behind reads that did not fail. -/
theorem rowsFrom_ok_iff {id : UInt64} {reads : List (Except ExecutionError (List RawCell))}
    {k : Nat} {cells : List (String × Cell)} :
    (∃ n, (rowsFrom ps id reads)[k]? = some (.ok ⟨n, cells⟩)) ↔
      ∃ row, reads[k]? = some (.ok row) ∧ (∀ j < k, ∃ before, reads[j]? = some (.ok before)) ∧
        cellsOf row [] ps = .ok cells := by
  induction reads generalizing id k with
  | nil => simp [rowsFrom]
  | cons r reads ih =>
    cases r with
    | error e =>
      -- nothing stands behind the failure but the failure itself
      rw [rowsFrom]
      cases k with
      | zero => simp
      | succ k =>
        simp only [List.getElem?_cons_succ, List.getElem?_nil, reduceCtorEq, exists_false, false_iff]
        rintro ⟨_, -, hbefore, -⟩
        obtain ⟨_, hzero⟩ := hbefore 0 k.succ_pos
        cases hzero
    | ok row =>
      have hbehind (k : Nat) : (∀ j < k + 1, ∃ before,
          ((Except.ok row : Except ExecutionError _) :: reads)[j]? = some (.ok before)) ↔
          ∀ j < k, ∃ before, reads[j]? = some (.ok before) := by
        refine ⟨fun h j hj => h (j + 1) (by omega), fun h j hj => ?_⟩
        cases j with
        | zero => exact ⟨row, rfl⟩
        | succ j => exact h j (by omega)
      rw [rowsFrom]
      cases hcells : cellsOf row [] ps with
      | ok cells' =>
        cases k with
        | zero =>
          have hzero : cellsOf row [] ps = .ok cells ↔ cells' = cells := by
            rw [hcells, Except.ok.injEq]
          simp [hzero]
        | succ k => simpa only [List.getElem?_cons_succ, hbehind] using ih
      | error e =>
        cases k with
        | zero => simp [hcells]
        | succ k => simpa only [List.getElem?_cons_succ, hbehind] using ih

end Hydration

/-- Columns with names of their own, whose labels are those of a cursor in some order: the rows can
be had, and the good ones are the rows that read as cells. -/
theorem Hydrator.rows_of_labels {columns : List OutputColumn} {cursor : Cursor}
    (hnames : (columns.map (·.name)).Nodup)
    (hlabels : cursor.labels.Perm (columns.map (·.label))) :
    ∃ rows, (Hydrator.rows ⟨columns, some cursor⟩).1 = .ok rows ∧
      ∀ (k : Nat) cells, (∃ n, rows[k]? = some (.ok ⟨n, cells⟩)) ↔
        ∃ row, cursor.reads[k]? = some (.ok row) ∧
          (∀ j < k, ∃ before, cursor.reads[j]? = some (.ok before)) ∧
          Hydration.ReadsAs cursor.labels columns row cells := by
  have hmem : ∀ c ∈ columns, c.label ∈ cursor.labels := fun c hc =>
    hlabels.mem_iff.2 (List.mem_map_of_mem hc)
  obtain ⟨ps, hps, hpositioned⟩ := Hydration.positions_of_mem hmem
  have hrows : (Hydrator.rows ⟨columns, some cursor⟩).1 =
      .ok (Hydration.rowsFrom ps 0 cursor.reads) := by
    simp only [Hydrator.rows, hps, Except.map]
  refine ⟨_, hrows, fun k cells => ?_⟩
  rw [Hydration.rowsFrom_ok_iff]
  refine exists_congr fun row => and_congr_right fun _ => and_congr_right fun _ => ?_
  rw [Hydration.cellsOf_ok_iff hpositioned hnames fun e he => (List.not_mem_nil he).elim]
  simp

/-! ## Columns of statements -/

namespace Plan

theorem items_main {p : Plan} {s : Sql.Select} {vs vs' : List Operand}
    (h : p.main.run vs = .ok (s, vs')) : s.items = p.outputItems := by
  obtain ⟨rows, orderBy, _, hrows, -, rfl⟩ := main_run h
  obtain ⟨base, having, _, -, -, rfl⟩ := rows_run hrows
  dsimp only
  unfold grouped
  split
  · rfl
  · split <;> rfl

theorem columns_of_compile {p : Plan} {c : Compiled} (h : p.compile = .ok c) :
    c.columns = p.columns :=
  (compile_rest h).2.2.2

/-- The columns of a plan have labels of their own, and so names of their own. -/
theorem Drawn.nodup_columns {m : Model} {d : Dialect} {q : Query} {root : m.Member} {p : Plan}
    (h : Drawn d q root p) :
    (p.columns.map (·.label)).Nodup ∧ (p.columns.map (·.name)).Nodup := by
  obtain ⟨memo, hshows⟩ := h.shows
  have hlabels : (p.columns.map (·.label)).Nodup := by
    rw [columns, List.map_map]
    exact hshows.labels.1
  have hfit : p.columns.map (·.label) = (p.columns.map (·.name)).map (Sql.fitName d) := by
    rw [columns, List.map_map, List.map_map, List.map_map]
    refine List.map_congr_left fun o ho => ?_
    obtain ⟨x, -, c, sql, rfl⟩ := h.exists_projection ho
    rfl
  exact ⟨hlabels, List.Nodup.of_map _ (hfit ▸ hlabels)⟩

/-- The item and the column of a projection: the item selects what the projection comes to, and the
column is found by the item's label. -/
structure Shown {m : Model} (d : Dialect) (q : Query) (root : m.Member) (p : Plan) (x : Projection)
    (i : Sql.Item) (column : OutputColumn) : Prop where
  label : i.label = some column.label
  name : column.name = x.name
  role : column.role = x.role
  grain : column.grain = x.path.grain
  value : ∃ t c required sql, locate root x.path = .ok (t, c) ∧
    Sourced ⟨d, false⟩ (Scope.of root q.arguments) required x.path x.path.grain sql ∧
    i.expr = p.outputExpr (x.output d c sql)

theorem Holds.shown {m : Model} {d : Dialect} {q : Query} {root : m.Member} {p : Plan}
    {required : List JoinPath} (h : Holds d q root required p) {k : Nat} {x : Projection}
    (hx : q.projections[k]? = some x) :
    ∃ i column, p.outputItems[k]? = some i ∧ p.columns[k]? = some column ∧
      Shown d q root p x i column := by
  obtain ⟨hk, rfl⟩ := List.getElem?_eq_some_iff.1 hx
  have hk' : k < p.outputs.length := h.outputs.length_eq ▸ hk
  obtain ⟨t, c, sql, hlocate, hsql, ho⟩ := h.outputs.get hk hk'
  refine ⟨labelled (p.outputExpr p.outputs[k]) p.outputs[k].column.label, p.outputs[k].column,
    ?_, ?_, ?_⟩
  · rw [outputItems, List.getElem?_map, List.getElem?_eq_getElem hk']
    rfl
  · rw [columns, List.getElem?_map, List.getElem?_eq_getElem hk']
    rfl
  · simp only [List.get_eq_getElem] at hlocate hsql ho
    rw [ho]
    exact ⟨rfl, rfl, rfl, rfl, t, c, required, sql, hlocate, hsql, rfl⟩

end Plan

/-- The main statement selects one item for each projection, in their order, under the label of the
projection's column, and the labels are distinct. Rows under these labels, in whatever order they
stand, can be read; and a good row has for each projection, in their order, the cell that stands
under the label of its column. -/
theorem compile_aligned {m : Model} {d : Dialect} {q : Query} {c : Compiled}
    (h : compile m d q = .ok c) :
    ∃ root p s params, m.require q.table = .ok root ∧ Plan.build m d q = .ok p ∧
      p.main.run [] = .ok (s, params) ∧ c.main = ⟨s.render d, params⟩ ∧
      s.items.length = q.projections.length ∧ c.columns.length = q.projections.length ∧
      (∀ (k : Nat) x, q.projections[k]? = some x → ∃ i column,
        s.items[k]? = some i ∧ c.columns[k]? = some column ∧ Plan.Shown d q root p x i column) ∧
      (c.columns.map (·.label)).Nodup ∧
      ∀ cursor : Cursor, cursor.labels.Perm (c.columns.map (·.label)) →
        ∃ rows, (Hydrator.rows ⟨c.columns, some cursor⟩).1 = .ok rows ∧
          ∀ (k : Nat) cells, (∃ n, rows[k]? = some (.ok ⟨n, cells⟩)) ↔
            ∃ row, cursor.reads[k]? = some (.ok row) ∧
              (∀ j < k, ∃ before, cursor.reads[j]? = some (.ok before)) ∧
              Hydration.ReadsAs cursor.labels c.columns row cells := by
  obtain ⟨p, hbuild, hcompile⟩ := bind_ok h
  obtain ⟨root, hroot, hdrawn⟩ := Plan.build_drawn hbuild
  obtain ⟨root', required, hroot', hholds, -⟩ := Plan.build_holds hbuild
  cases hroot.symm.trans hroot'
  obtain ⟨s, params, hmain, hc⟩ := Plan.statement_ok (Plan.compile_ok hcompile).1
  obtain ⟨hlabels, hnames⟩ := hdrawn.nodup_columns
  rw [hdrawn.dialect] at hc
  rw [Plan.columns_of_compile hcompile]
  refine ⟨root, p, s, params, hroot, hbuild, hmain, hc, ?_, ?_, fun k x hx => ?_, hlabels,
    fun cursor => Hydrator.rows_of_labels hnames⟩
  · rw [Plan.items_main hmain, Plan.outputItems, List.length_map, hholds.outputs.length_eq]
  · rw [Plan.columns, List.length_map, hholds.outputs.length_eq]
  · rw [Plan.items_main hmain]
    exact hholds.shown hx

/-- The scores come first from the database, and the ratings first in the row. -/
theorem compile_aligned_bestScores :
    ∃ c rows n, compile Placement.players .postgres (Placement.bestScores none none) = .ok c ∧
      (Hydrator.rows ⟨c.columns, some ⟨["score", "rating"], [.ok [.int 5, .text "A"]]⟩⟩).1 =
        .ok rows ∧
      rows[0]? = some (.ok ⟨n, [("rating", .text "A"), ("score", .integer 5)]⟩) := by
  let columns : List OutputColumn := [
    { name := "rating", label := "rating", role := .dimension, valueType := .text },
    { name := "score", label := "score", role := .metric, valueType := .text }]
  let q := Placement.bestScores none none
  let root : Placement.players.Member := ⟨Placement.players.tables.head (by decide), by decide⟩
  have hfilters : Placement.of Placement.players q = .ok {} := by decide +kernel
  have hroot : Placement.players.require q.table = .ok root := rfl
  obtain ⟨p, hp, hshown⟩ := Plan.build_shown (d := .postgres)
    (fun p => p.columns == columns && p.compile.toOption.isSome) hfilters hroot (by decide +kernel)
  simp only [Bool.and_eq_true, beq_iff_eq] at hshown
  obtain ⟨hcolumns, hsome⟩ := hshown
  obtain ⟨c, hcompile⟩ := Option.isSome_iff_exists.1 hsome
  have hcompile : p.compile = .ok c := ok_of_toOption hcompile
  have hc := (compile_of_build hp).trans hcompile
  obtain ⟨-, -, -, -, -, -, -, -, -, -, -, -, hread⟩ := compile_aligned hc
  have hcolumns : c.columns = columns := (Plan.columns_of_compile hcompile).trans hcolumns
  rw [hcolumns] at hread
  obtain ⟨rows, hrows, hcells⟩ := hread ⟨["score", "rating"], [.ok [.int 5, .text "A"]]⟩
    (.swap _ _ _)
  obtain ⟨n, hn⟩ := (hcells 0 [("rating", .text "A"), ("score", .integer 5)]).2
    ⟨_, rfl, fun _ hj => (Nat.not_lt_zero _ hj).elim, .cons (by decide) (.cons (by decide) .nil)⟩
  exact ⟨c, rows, n, hc, hcolumns ▸ hrows, hn⟩

end Rollup
