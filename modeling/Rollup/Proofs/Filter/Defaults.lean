/-
Defaults that are written out. A path may leave out an argument whose column declares a default, or
give the default; both are expanded alike, since an accepted model has checked its defaults. But a
condition is matched with a selected column by the arguments as they are written. So queries that
differ in nothing but such defaults are placed alike where each of them writes its conditions as it
writes the columns it selects, and else they need not be.
-/
import Rollup.Proofs.Expansion.Aggregating
import Rollup.Proofs.Filter.Alike
import Rollup.Proofs.Filter.Groupable

namespace Rollup

/-! ## Declared defaults -/

namespace Expansion

variable {owner : String} {fixed passed passed' : Arguments} {ps : List Parameter}

/-- Columns are opened alike with values that differ in defaults only. -/
theorem bindArguments_congr (owner : String) (fixed : Arguments) (h : ∀ p ∈ ps,
      (passed.get? p.name).or p.default = (passed'.get? p.name).or p.default) :
    bindArguments owner fixed passed ps = bindArguments owner fixed passed' ps := by
  unfold bindArguments
  generalize Arguments.empty = bound
  induction ps generalizing bound with
  | nil => rfl
  | cons p ps ih =>
    have hvalue : ((passed.get? p.name).orElse fun _ => p.default) =
        (passed'.get? p.name).orElse fun _ => p.default := by
      rw [Option.orElse_eq_or, Option.orElse_eq_or]
      exact h p List.mem_cons_self
    rw [List.foldlM_cons, List.foldlM_cons, hvalue]
    congr 1
    funext bound
    exact ih (fun p hp => h p (List.mem_cons_of_mem _ hp)) bound

/-- A column that is opened has checked the values of all its arguments. -/
theorem check_of_bindArguments {a : Arguments} (h : bindArguments owner fixed passed ps = .ok a) :
    ∀ p ∈ ps, ∀ v, (fixed.get? p.name).or ((passed.get? p.name).or p.default) = some v →
      p.check v = .ok () := by
  unfold bindArguments at h
  generalize Arguments.empty = bound at h
  induction ps generalizing bound with
  | nil => exact fun _ hp => by cases hp
  | cons p ps ih =>
    rw [List.foldlM_cons] at h
    obtain ⟨next, hnext, h⟩ := bind_ok h
    rw [List.forall_mem_cons]
    refine ⟨fun v hv => ?_, ih next h⟩
    rw [Option.orElse_eq_or, Option.orElse_eq_or, hv] at hnext
    dsimp only at hnext
    split at hnext
    · rename_i hcheck
      exact hcheck
    · cases hnext

end Expansion

namespace Model

variable {m : Model} {t : m.Member} {c : Column}

theorem parameters_nodup_of_check (h : m.check = .ok ()) (hc : c ∈ t.1.columns) :
    (c.parameters.map (·.name)).Nodup := by
  obtain ⟨earlier, hcolumn⟩ := ok_of_checkEach (columns_checked h t) c hc
  cases hnames : firstRepeated? [] (c.parameters.map (·.name)) with
  | none => exact (nodup_of_firstRepeated? hnames).1
  | some a =>
    unfold checkColumn at hcolumn
    cases hseen : earlier.contains c.name <;> rw [hnames, hseen] at hcolumn <;>
      split at hcolumn <;> cases hcolumn

/-- A declared argument is found by its name. -/
theorem parameter?_of_check (h : m.check = .ok ()) (hc : c ∈ t.1.columns) {p : Parameter}
    (hp : p ∈ c.parameters) : c.parameter? p.name = some p := by
  cases hfound : c.parameter? p.name with
  | none => simpa using List.find?_eq_none.1 hfound p hp
  | some p' =>
    have hname : p'.name = p.name := by simpa using List.find?_some hfound
    rw [List.inj_on_of_nodup_map (parameters_nodup_of_check h hc)
      (List.mem_of_find?_eq_some hfound) hp hname]

/-- The declared defaults of an accepted model pass the checks of their arguments. -/
theorem default_checked (h : m.check = .ok ()) (hc : c ∈ t.1.columns) {p : Parameter}
    (hp : p ∈ c.parameters) {v : String} (hv : p.default = some v) : p.check v = .ok () := by
  obtain ⟨⟨f, hf⟩, -⟩ := columns_of_check h t c hc
  obtain ⟨⟨t', path⟩, hwalk, hf⟩ := bind_ok hf
  cases hwalk
  obtain ⟨opened, hopen, -⟩ := bind_ok hf
  obtain ⟨c', arguments, -, -, hcolumn, hbound, -⟩ := Expansion.openColumn_eq hopen
  obtain ⟨d, rfl, hd⟩ := column?_of_mem h hc
  cases hd.symm.trans hcolumn
  exact Expansion.check_of_bindArguments hbound p hp v hv

end Model

/-! ## Paths that differ in defaults -/

section

variable {m : Model} (root : m.Member)

/-- The column a path leads to. -/
def Path.column? (x : Path) : Option Column :=
  (followJoins root x.joins).toOption.bind fun t => t.1.column? x.column

/-- The value a path gives an argument: the one that is written, else the declared default. -/
def Path.value? (x : Path) (name : String) : Option String :=
  (x.arguments.get? name).or (((x.column? root).bind (·.parameter? name)).bind (·.default))

/-- Two paths lead to one column with the same values of its arguments, though one of them may leave
out a default that the other gives. -/
structure Path.SameValues (x y : Path) : Prop where
  joins : x.joins = y.joins
  column : x.column = y.column
  values : ∀ name, x.value? root name = y.value? root name

/-- The same path but for defaults that are left out or given. -/
structure Path.Respelled (x y : Path) : Prop extends Path.SameValues root x y where
  grain : x.grain = y.grain

/-- The same test but for defaults in its path. -/
structure Predicate.Respelled (p p' : Predicate) : Prop where
  column : Path.Respelled root p.column p'.column
  op : p.op = p'.op
  values : p.values = p'.values

/-- The same query but for defaults in the paths of its columns and conditions. The names of the
columns may differ, and so may all that is not looked at when conditions are placed. -/
structure Query.Respelled (q q' : Query) : Prop where
  table : q.table = q'.table
  arguments : q.arguments = q'.arguments
  projections : List.Forall₂ (fun d d' => Path.Respelled root d.path d'.path ∧ d.role = d'.role)
    q.projections q'.projections
  whereFilter : Option.Rel (Filter.Related (Predicate.Respelled root)) q.whereFilter q'.whereFilter
  havingFilter :
    Option.Rel (Filter.Related (Predicate.Respelled root)) q.havingFilter q'.havingFilter

/-- The conditions of a query are written as its selected columns are: where they are about one
column with the same values, they give the same arguments. -/
def Query.SpellsAlike (q : Query) : Prop :=
  ∀ d ∈ q.projections,
    ∀ p ∈ Filter.predicatesOf q.whereFilter ++ Filter.predicatesOf q.havingFilter,
      Path.SameValues root d.path p.column → d.path.arguments = p.column.arguments

end

section

variable {m : Model} {root : m.Member} {x y z : Path}

theorem Path.column?_congr (hjoins : x.joins = y.joins) (hcolumn : x.column = y.column) :
    x.column? root = y.column? root := by
  unfold Path.column?
  rw [hjoins, hcolumn]

theorem Path.column?_of_followJoins {t : m.Member} (ht : followJoins root x.joins = .ok t) :
    x.column? root = t.1.column? x.column := by
  unfold Path.column?
  rw [ht]
  rfl

namespace Path.SameValues

theorem symm (h : Path.SameValues root x y) : Path.SameValues root y x :=
  ⟨h.joins.symm, h.column.symm, fun name => (h.values name).symm⟩

theorem trans (h : Path.SameValues root x y) (h' : Path.SameValues root y z) :
    Path.SameValues root x z :=
  ⟨h.joins.trans h'.joins, h.column.trans h'.column,
    fun name => (h.values name).trans (h'.values name)⟩

theorem of_sameColumn (h : x.sameColumn y = true) : Path.SameValues root x y := by
  unfold Path.sameColumn at h
  simp only [Bool.and_eq_true, beq_iff_eq] at h
  obtain ⟨⟨hjoins, hcolumn⟩, harguments⟩ := h
  refine ⟨hjoins, hcolumn, fun name => ?_⟩
  unfold Path.value?
  rw [harguments, Path.column?_congr hjoins hcolumn]

end Path.SameValues

/-- Where a query spells alike, a test matches the columns that have its values. -/
theorem Query.SpellsAlike.sameColumn_iff {q : Query} (h : q.SpellsAlike root) {d : Projection}
    (hd : d ∈ q.projections) {p : Predicate}
    (hp : p ∈ Filter.predicatesOf q.whereFilter ++ Filter.predicatesOf q.havingFilter) :
    d.path.sameColumn p.column = true ↔ Path.SameValues root d.path p.column := by
  constructor
  · exact Path.SameValues.of_sameColumn
  · intro hvalues
    unfold Path.sameColumn
    rw [hvalues.joins, hvalues.column, h d hd p hp hvalues]
    simp

theorem Path.Respelled.refl (x : Path) : Path.Respelled root x x :=
  ⟨⟨rfl, rfl, fun _ => rfl⟩, rfl⟩

/-- To give a default that was left out is no more than another way to write the path. -/
theorem Path.respelled_insert {name v : String} (hleft : x.arguments.get? name = none)
    (hdefault : ((x.column? root).bind (·.parameter? name)).bind (·.default) = some v) :
    Path.Respelled root x { x with arguments := x.arguments.insert name v } := by
  refine ⟨⟨rfl, rfl, fun key => ?_⟩, rfl⟩
  unfold Path.value?
  dsimp only
  rw [Arguments.get?_insert]
  by_cases hkey : key = name
  · subst hkey
    rw [if_pos rfl, hleft, Option.none_or, Option.some_or]
    exact hdefault
  · rw [if_neg hkey]
    rfl

/-! ## Respelled paths are treated alike -/

/-- Of the arguments of a path that leads to a column, its values are those that count. -/
theorem Path.SameValues.bound (hcheck : m.check = .ok ()) (h : Path.SameValues root x y)
    {t : m.Member} (ht : followJoins root x.joins = .ok t) {c : Column}
    (hc : t.1.column? x.column = some c) {p : Parameter} (hp : p ∈ c.parameters) :
    (x.arguments.get? p.name).or p.default = (y.arguments.get? p.name).or p.default := by
  have hcolumn : x.column? root = some c := by rw [Path.column?_of_followJoins ht, hc]
  have hparameter := Model.parameter?_of_check hcheck (t := t) (List.mem_of_find?_eq_some hc) hp
  have hvalue := h.values p.name
  unfold Path.value? at hvalue
  rw [← Path.column?_congr h.joins h.column, hcolumn, Option.bind_some, hparameter,
    Option.bind_some] at hvalue
  exact hvalue

/-- What a path leaves out is expanded as what it gives. -/
theorem expandColumn_respelled (hcheck : m.check = .ok ()) (h : Path.SameValues root x y)
    (mode : Mode) (given : Arguments) (grain : Option Grain) :
    expandColumn mode (Scope.of root given) x.joins x.column x.arguments grain =
      expandColumn mode (Scope.of root given) y.joins y.column y.arguments grain := by
  unfold expandColumn
  rw [← h.joins, ← h.column]
  dsimp only
  cases hwalk : walk (stepsText x.joins x.column) (Scope.of root given).root [] x.joins with
  | error e => rfl
  | ok reached =>
    obtain ⟨t, path⟩ := reached
    have ht := (Expansion.leads_of_walk hwalk).followJoins
    have hopen : openColumn t path x.column .empty x.arguments grain (stepsText x.joins x.column) =
        openColumn t path x.column .empty y.arguments grain (stepsText x.joins x.column) := by
      unfold openColumn
      cases hcolumn : Model.Member.column? t x.column with
      | none => rfl
      | some c =>
        have hbound := Expansion.bindArguments_congr (t.1.name ++ "." ++ c.1.name) .empty
          fun p hp => h.bound hcheck ht (Model.column_of_column? hcolumn) hp
        dsimp only
        rw [hbound]
    show (openColumn t path x.column .empty x.arguments grain _ >>= _) = _
    rw [hopen]
    rfl

/-- The values that are given to a column are accepted by its declarations. -/
def Accepts (c : Column) (owner : String) (a : Arguments) : Prop :=
  ∀ e ∈ a.entries, checkArgument owner e.1 e.2 .undeclaredByColumn (c.parameter? e.1) = .ok ()

/-- What a path gives is accepted if what the other gives is: it is given there as well, or it is a
default. -/
theorem Path.SameValues.accepts (hcheck : m.check = .ok ()) (h : Path.SameValues root x y)
    {t : m.Member} (ht : followJoins root x.joins = .ok t) {c : Column}
    (hc : t.1.column? x.column = some c) {owner : String} (hx : Accepts c owner x.arguments) :
    Accepts c owner y.arguments := by
  intro e he
  have hcolumn : x.column? root = some c := by rw [Path.column?_of_followJoins ht, hc]
  have hvalue := h.values e.1
  unfold Path.value? at hvalue
  rw [← Path.column?_congr h.joins h.column, hcolumn, Option.bind_some,
    Arguments.get?_of_mem he, Option.some_or] at hvalue
  cases hget : x.arguments.get? e.1 with
  | some v =>
    rw [hget, Option.some_or, Option.some.injEq] at hvalue
    subst hvalue
    exact hx e (Arguments.mem_of_get? hget)
  | none =>
    rw [hget, Option.none_or] at hvalue
    obtain ⟨p, hp, hdefault⟩ := Option.bind_eq_some_iff.1 hvalue
    rw [hp]
    show (p.check e.2).mapError _ = _
    rw [Model.default_checked hcheck (t := t) (List.mem_of_find?_eq_some hc)
      (List.mem_of_find?_eq_some hp) hdefault]
    rfl

theorem kind_checkArgument {owner name value : String} {undeclared : ArgumentFault}
    {declared : Option Parameter} {e : CompileError}
    (h : checkArgument owner name value undeclared declared = .error e) :
    e.kind = .invalidArgument := by
  cases declared with
  | none =>
    cases h
    rfl
  | some p =>
    obtain ⟨fault, -, rfl⟩ := mapError_error h
    rfl

theorem agree_checkArguments (owner : String) {c : Column} {a b : Arguments}
    (h : Accepts c owner a ↔ Accepts c owner b) :
    Agree (· = ·)
      (a.entries.forM fun (name, value) =>
        checkArgument owner name value .undeclaredByColumn (c.parameter? name))
      (b.entries.forM fun (name, value) =>
        checkArgument owner name value .undeclaredByColumn (c.parameter? name)) := by
  cases ha : a.entries.forM fun (name, value) =>
      checkArgument owner name value .undeclaredByColumn (c.parameter? name) with
  | ok _ =>
    rw [forM_ok_iff.2 (h.1 (forM_ok ha))]
    rfl
  | error e =>
    obtain ⟨entry, -, hentry⟩ := forM_error ha
    cases hb : b.entries.forM fun (name, value) =>
        checkArgument owner name value .undeclaredByColumn (c.parameter? name) with
    | ok _ =>
      rw [forM_ok_iff.2 (h.2 (forM_ok hb))] at ha
      cases ha
    | error e' =>
      obtain ⟨entry', -, hentry'⟩ := forM_error hb
      exact (kind_checkArgument hentry).trans (kind_checkArgument hentry').symm

/-- Respelled paths lead to the same column, or are refused for reasons of one kind. -/
theorem locate_respelled (hcheck : m.check = .ok ()) (h : Path.Respelled root x y) :
    Agree (· = ·) (locate root x) (locate root y) := by
  unfold locate
  rw [← h.joins, ← h.column, ← h.grain]
  cases ht : followJoins root x.joins with
  | error e => exact agree_throw rfl
  | ok t =>
    have ht' : followJoins root y.joins = .ok t := h.joins ▸ ht
    dsimp only [bind, Except.bind]
    cases hc : t.1.column? x.column with
    | none => exact agree_throw rfl
    | some c =>
      have hc' : t.1.column? y.column = some c := h.column ▸ hc
      have hchecks := agree_checkArguments (t.1.name ++ "." ++ c.name)
        ⟨h.toSameValues.accepts hcheck ht hc, h.toSameValues.symm.accepts hcheck ht' hc'⟩
      have hlast := hchecks.bind (S := (· = ·)) (f := fun _ => .ok (t, c))
        (g := fun _ => .ok (t, c)) fun _ _ _ => rfl
      cases x.grain with
      | none => exact hlast
      | some g =>
        dsimp only
        split
        · exact agree_throw rfl
        · exact hlast

end

/-! ## Respelled conditions are placed alike -/

theorem any_eq_of_beside {α : Type} {R : α → α → Prop} {xs ys : List α} {f g : α → Bool}
    (h : List.Forall₂ R xs ys) (hfg : ∀ x ∈ xs, ∀ y ∈ ys, R x y → f x = g y) :
    xs.any f = ys.any g := by
  induction h with
  | nil => rfl
  | cons hfirst _ ih =>
    rw [List.any_cons, List.any_cons, hfg _ List.mem_cons_self _ List.mem_cons_self hfirst,
      ih fun x hx y hy => hfg x (List.mem_cons_of_mem _ hx) y (List.mem_cons_of_mem _ hy)]

namespace Query

theorem isSome_metricProjection? (q : Query) (x : Path) :
    (q.metricProjection? x).isSome =
      q.projections.any fun d => d.role == .metric && d.path.sameColumn x := by
  rw [metricProjection?, List.isSome_find?, metrics, List.any_filter]

theorem isSome_groupingProjection? (q : Query) (x : Path) :
    (q.groupingProjection? x).isSome = q.projections.any fun d => d.role.isDimension &&
      (d.path.sameColumn x && (x.grain.isNone || x.grain == d.path.grain)) := by
  rw [groupingProjection?, List.isSome_find?, dimensions, List.any_filter]

end Query

namespace Placement

open Rollup.Filter

section

variable {m : Model} {root : m.Member} {q q' : Query}

/-- The same test in two queries, but for defaults in its path. -/
def Beside (root : m.Member) (q q' : Query) (p p' : Predicate) : Prop :=
  Predicate.Respelled root p p' ∧
    p ∈ predicatesOf q.whereFilter ++ predicatesOf q.havingFilter ∧
    p' ∈ predicatesOf q'.whereFilter ++ predicatesOf q'.havingFilter

variable (hcheck : m.check = .ok ()) (hq : Query.Respelled root q q')
  (hspells : q.SpellsAlike root) (hspells' : q'.SpellsAlike root) {p p' : Predicate}
  (hp : Beside root q q' p p')

include hspells hspells' hp in
/-- A test and a selected column match in both queries or in none. -/
theorem sameColumn_respelled {d d' : Projection} (hd : d ∈ q.projections)
    (hd' : d' ∈ q'.projections) (h : Path.Respelled root d.path d'.path) :
    d.path.sameColumn p.column = d'.path.sameColumn p'.column := by
  obtain ⟨hp, hmem, hmem'⟩ := hp
  have hvalues : Path.SameValues root d.path p.column ↔
      Path.SameValues root d'.path p'.column := by
    constructor
    · exact fun hdp => h.toSameValues.symm.trans (hdp.trans hp.column.toSameValues)
    · exact fun hdp => h.toSameValues.trans (hdp.trans hp.column.toSameValues.symm)
  rw [Bool.eq_iff_iff, hspells.sameColumn_iff hd hmem, hspells'.sameColumn_iff hd' hmem', hvalues]

include hq hspells hspells' hp

theorem isSome_metricProjection?_respelled :
    (q.metricProjection? p.column).isSome = (q'.metricProjection? p'.column).isSome := by
  rw [Query.isSome_metricProjection?, Query.isSome_metricProjection?]
  refine any_eq_of_beside hq.projections fun d hd d' hd' h => ?_
  rw [h.2, sameColumn_respelled hspells hspells' hp hd hd' h.1]

theorem isSome_groupingProjection?_respelled :
    (q.groupingProjection? p.column).isSome = (q'.groupingProjection? p'.column).isSome := by
  rw [Query.isSome_groupingProjection?, Query.isSome_groupingProjection?]
  refine any_eq_of_beside hq.projections fun d hd d' hd' h => ?_
  rw [h.2, sameColumn_respelled hspells hspells' hp hd hd' h.1, hp.1.column.grain, h.1.grain]

omit hspells hspells' in
include hcheck in
theorem checkRawMetric_respelled :
    Agree (· = ·) (checkRawMetric q root p) (checkRawMetric q' root p') := by
  unfold checkRawMetric
  rw [← hq.arguments,
    ← expandColumn_respelled hcheck hp.1.column.toSameValues ⟨.duckdb, false⟩ q.arguments none]
  refine agree_bind fun f => ?_
  split
  · exact agree_throw rfl
  · rfl

include hcheck

theorem place_respelled (origin : Clause) :
    Agree (· = ·) (place q root origin p) (place q' root origin p') := by
  have hgrouped := isSome_groupingProjection?_respelled hq hspells hspells' hp
  unfold place
  rw [← isSome_metricProjection?_respelled hq hspells hspells' hp, ← Option.not_isSome,
    ← Option.not_isSome, ← hgrouped, ← hp.1.column.joins]
  refine (locate_respelled hcheck hp.1.column).bind fun found _ hfound => ?_
  subst hfound
  dsimp only
  split
  · split
    · rfl
    · exact (checkRawMetric_respelled hcheck hq hp).bind fun _ _ _ => rfl
  · split
    · exact agree_throw rfl
    · rfl

theorem checkPromotable_respelled :
    Agree (· = ·) (checkPromotable q root p) (checkPromotable q' root p') := by
  have hgrouped := isSome_groupingProjection?_respelled hq hspells hspells' hp
  unfold checkPromotable
  rw [← Option.not_isSome, ← Option.not_isSome, ← hgrouped]
  refine (locate_respelled hcheck hp.1.column).bind fun found _ hfound => ?_
  subst hfound
  dsimp only
  split
  · exact agree_throw rfl
  · split
    · exact agree_throw rfl
    · rfl

theorem onGroups_respelled (origin : Clause) :
    onGroups q root origin p = onGroups q' root origin p' := by
  have hmetric : onMetric root p = onMetric root p' := by
    unfold onMetric
    rcases (locate_respelled hcheck hp.1.column).cases with
      ⟨e, e', he, he', -⟩ | ⟨found, _, hfound, hfound', rfl⟩
    · rw [he, he']
    · rw [hfound, hfound']
  unfold onGroups
  rw [hmetric, isSome_metricProjection?_respelled hq hspells hspells' hp]

omit hp

theorem treatsAlike_respelled : TreatsAlike (Beside root q q') q q' root := by
  refine ⟨fun hp => ?_, fun origin hp => place_respelled hcheck hq hspells hspells' hp origin,
    fun hp => checkPromotable_respelled hcheck hq hspells hspells' hp, fun hp => ?_⟩
  · refine (locate_respelled hcheck hp.1.column).bind fun found _ hfound => ?_
    subst hfound
    refine checkOperator_alike hp.1.op ?_ found.2
    rw [hp.1.values]
    exact List.forall₂_same.2 fun v _ => .refl v
  · refine (locate_respelled hcheck hp.1.column).bind fun found _ hfound => ?_
    subst hfound
    dsimp only
    split
    · exact checkRawMetric_respelled hcheck hq hp
    · rfl

end

/-! ## Queries -/

section

variable {m : Model} {root : m.Member} {q q' : Query}

theorem beside_of_respelled (q q' : Query) {f? g? : Option Filter}
    (h : Option.Rel (Filter.Related (Predicate.Respelled root)) f? g?)
    (hf : ∀ p ∈ predicatesOf f?,
      p ∈ predicatesOf q.whereFilter ++ predicatesOf q.havingFilter)
    (hg : ∀ p ∈ predicatesOf g?,
      p ∈ predicatesOf q'.whereFilter ++ predicatesOf q'.havingFilter) :
    Option.Rel (Filter.Related (Beside root q q')) f? g? := by
  cases h with
  | none => exact .none
  | some h =>
    rw [predicatesOf_some] at hf hg
    exact .some (h.imp fun p hp p' hp' hpp' => ⟨hpp', hf p hp, hg p' hp'⟩)

theorem partsOf_related {R : Predicate → Predicate → Prop}
    (hwhere : Option.Rel (Filter.Related R) q.whereFilter q'.whereFilter)
    (hhaving : Option.Rel (Filter.Related R) q.havingFilter q'.havingFilter) :
    List.Forall₂ (SamePlace (Filter.Related R)) (partsOf q) (partsOf q') := by
  have hside : ∀ (c : Clause) {f? g? : Option Filter}, Option.Rel (Filter.Related R) f? g? →
      List.Forall₂ (SamePlace (Filter.Related R))
        (((f?.map pushNot).toList.flatMap conjuncts).map fun part => (c, part))
        (((g?.map pushNot).toList.flatMap conjuncts).map fun part => (c, part)) := by
    intro c f? g? h
    have hparts := List.rel_flatMap (related_toList (related_map_pushNot h)) fun _ _ hf =>
      hf.conjuncts
    rw [List.forall₂_map_left_iff, List.forall₂_map_right_iff]
    exact hparts.imp fun f g hfg => ⟨rfl, hfg⟩
  exact List.rel_append (hside .rows hwhere) (hside .groups hhaving)

theorem Related.imp {R S : Predicate → Predicate → Prop} {a b : Placement} (h : Related R a b)
    (hRS : ∀ p p', R p p' → S p p') : Related S a b := by
  have hside : ∀ {f? g? : Option Filter}, Option.Rel (Filter.Related R) f? g? →
      Option.Rel (Filter.Related S) f? g? := by
    rintro _ _ (hfg | _)
    · exact .some (hfg.imp fun p _ p' _ => hRS p p')
    · exact .none
  exact ⟨hside h.rows, hside h.groups⟩

theorem isAggregated_respelled (hq : Query.Respelled root q q') :
    q.isAggregated = q'.isAggregated := by
  unfold Query.isAggregated
  refine any_eq_of_beside hq.projections fun d _ d' _ h => ?_
  rw [h.2]

/-- Queries of an accepted model that differ in nothing but defaults, left out or given, are placed
alike where each of them writes its conditions as it writes the columns it selects: both are refused
for reasons of one kind, or both are placed, and every part of their filters in the same clause. -/
theorem of_respelled {tables : List Table} {depth : Nat} (hbuild : Model.build tables depth = .ok m)
    (hroot : m.require q.table = .ok root) (hq : Query.Respelled root q q')
    (hspells : q.SpellsAlike root) (hspells' : q'.SpellsAlike root) :
    Agree (Related (Predicate.Respelled root)) (of m q) (of m q') ∧
    List.Forall₂ (fun part part' =>
        SamePlace (Filter.Related (Predicate.Respelled root)) part part' ∧
          partOnGroups q root part = partOnGroups q' root part')
      (partsOf q) (partsOf q') := by
  have hcheck := Model.check_of_build hbuild
  have hwhere := beside_of_respelled q q' hq.whereFilter
    (fun p hp => List.mem_append_left _ hp) fun p hp => List.mem_append_left _ hp
  have hhaving := beside_of_respelled q q' hq.havingFilter
    (fun p hp => List.mem_append_right _ hp) fun p hp => List.mem_append_right _ hp
  constructor
  · refine (of_related hq.table (isAggregated_respelled hq) hwhere hhaving ?_).imp
      fun a b h => h.imp fun p p' hp => hp.1
    intro root' hroot'
    rw [hroot, Except.ok.injEq] at hroot'
    subst hroot'
    exact treatsAlike_respelled hcheck hq hspells hspells'
  · refine (partsOf_related hwhere hhaving).imp fun part part' h => ?_
    refine ⟨⟨h.1, h.2.imp fun p _ p' _ hp => hp.1⟩, ?_⟩
    unfold partOnGroups
    rw [← h.1]
    exact any_eq_of_beside h.2.predicates fun p _ p' _ hp =>
      onGroups_respelled hcheck hq hspells hspells' hp part.1

end

/-! ## An example -/

theorem spellsAlike_of_written {m : Model} {root : m.Member} {q : Query}
    (h : ∀ d ∈ q.projections, ∀ p ∈ predicatesOf q.whereFilter ++ predicatesOf q.havingFilter,
      d.path.column = p.column.column → d.path.arguments = p.column.arguments) :
    q.SpellsAlike root :=
  fun d hd p hp hvalues => h d hd p hp hvalues.column

/-- Dives, whose points count twice if nothing else is said. -/
def dives : Table where
  name := "dives"
  source := .physical none "dives"
  columns := [
    { name := "pool", formula := "\x7b\x7b$pool\x7d\x7d", kind := .dimension },
    { name := "weighted"
      formula := "\x7b\x7b$points\x7d\x7d * \x7b\x7b$$column.args.factor\x7d\x7d"
      parameters := [{ name := "factor", valueType := .integer, default := some "2" }]
      kind := .metric (some .sum) [] }]

/-- The model of the dives. -/
def meeting : Model where
  tables := [dives]

/-- The dives in their model. -/
def meetingDives : meeting.Member := ⟨dives, List.mem_cons_self⟩

/-- The weighted points with some arguments. -/
def weighted (given : Arguments) : Path :=
  { column := "weighted", arguments := given }

/-- The default factor, given. -/
def twice : Arguments := Arguments.empty.insert "factor" "2"

/-- The weighted points are over a number. -/
def weightedOver (n : Int64) (given : Arguments) : Predicate :=
  ⟨weighted given, .compare .gt, [.int n]⟩

/-- The weighted points of each pool where they are over a hundred. -/
def heavyPools (selected tested : Arguments) : Query where
  table := "dives"
  arguments := .empty
  projections := [
    ⟨{ column := "pool" }, .dimension, "pool"⟩, ⟨weighted selected, .metric, "weighted"⟩]
  whereFilter := some (.test (weightedOver 100 tested))
  havingFilter := none
  sorting := []
  pagination := none
  bypassCache := false

theorem weighted_respelled :
    Path.Respelled meetingDives (weighted .empty) (weighted twice) :=
  Path.respelled_insert (by decide) (by decide +kernel)

theorem heavyPools_respelled {selected selected' tested tested' : Arguments}
    (hselected : Path.Respelled meetingDives (weighted selected) (weighted selected'))
    (htested : Path.Respelled meetingDives (weighted tested) (weighted tested')) :
    Query.Respelled meetingDives (heavyPools selected tested) (heavyPools selected' tested') :=
  ⟨rfl, rfl, .cons ⟨.refl _, rfl⟩ (.cons ⟨hselected, rfl⟩ .nil), .some (.test ⟨htested, rfl, rfl⟩),
    .none⟩

/-- The default left out twice or given twice: the test is one of groups either way. -/
theorem of_respelled_heavyPools :
    Model.build [dives] = .ok meeting ∧
    Query.Respelled meetingDives (heavyPools .empty .empty) (heavyPools twice twice) ∧
    Agree (Related (Predicate.Respelled meetingDives)) (of meeting (heavyPools .empty .empty))
      (of meeting (heavyPools twice twice)) ∧
    of meeting (heavyPools twice twice) = .ok ⟨none, some (.test (weightedOver 100 twice))⟩ := by
  have hbuild : Model.build [dives] = .ok meeting := by decide +kernel
  have hroot : meeting.require "dives" = .ok meetingDives := by decide +kernel
  have hrespelled := heavyPools_respelled weighted_respelled weighted_respelled
  refine ⟨hbuild, hrespelled, ?_, by decide +kernel⟩
  exact (of_respelled hbuild hroot hrespelled (spellsAlike_of_written (by decide))
    (spellsAlike_of_written (by decide))).1

/-- The default given where the metric is selected: the test is one of groups if it gives the
default as well, and one of single dives if it leaves it out. -/
theorem of_respelled_heavyPools_unlike :
    Model.build [dives] = .ok meeting ∧ meeting.require "dives" = .ok meetingDives ∧
    Query.Respelled meetingDives (heavyPools twice .empty) (heavyPools twice twice) ∧
    of meeting (heavyPools twice .empty) = .ok ⟨some (.test (weightedOver 100 .empty)), none⟩ ∧
    of meeting (heavyPools twice twice) = .ok ⟨none, some (.test (weightedOver 100 twice))⟩ :=
  ⟨by decide +kernel, by decide +kernel, heavyPools_respelled (.refl _) weighted_respelled,
    by decide +kernel, by decide +kernel⟩

end Placement

end Rollup
