/-
Formulas in two dialects. Dialects quote names, write truth values and truncate times in their own
ways, and nothing else in what a formula stands for is theirs; so by recursion over what it stands
for in both, the text of one dialect calls an aggregate where that of the other does. The exception
is a truncation to the quarter that a formula asks for: in MySQL it ends in a word, and a call
written directly behind it is none there.
-/
import Rollup.Proofs.Model.Dangling
import Rollup.Proofs.Sql.Calls
import Rollup.Proofs.Text.Classes
import Rollup.Proofs.Text.Cutting

namespace Rollup

open Sql

/-! ## What stands behind columns in formulas -/

/-- Whether a segment stands for the text of a column. -/
def Segment.isColumn : Segment → Bool
  | .reference _ (.logical _) | .pinned .. | .columnBase => true
  | _ => false

/-- Whether a segment takes a column to the quarter. -/
def Segment.fixesQuarter : Segment → Bool
  | .pinned _ _ values =>
    (values.get? "grain").any fun v => (Grain.parse v).toOption == some .quarter
  | _ => false

/-- Whether a template ends here or goes on with a database column, or with text that begins no
word. -/
def Template.beginsClear : Template → Bool
  | [] | .reference _ (.physical _) :: _ => true
  | .literal text :: _ => text.toList.head?.any (!Text.isWordChar ·)
  | _ => false

/-- Whether no word and no other placeholder stands directly behind a column. -/
def Template.isSpaced : Template → Bool
  | [] => true
  | segment :: rest => (!segment.isColumn || Template.beginsClear rest) && isSpaced rest

namespace Model

/-- Every formula is one of a kind. -/
def EachFormula (m : Model) (P : Template → Bool) : Prop :=
  ∀ c ∈ m.columns, ∀ text ∈ c.formulas, ∀ u ∈ (Template.parse text).toOption, P u = true

instance (m : Model) (P : Template → Bool) : Decidable (m.EachFormula P) :=
  inferInstanceAs (Decidable (∀ c ∈ m.columns, _))

/-- No word and no other placeholder stands directly behind a column in a formula. -/
def SpacesColumns (m : Model) : Prop :=
  m.EachFormula Template.isSpaced

/-- No formula takes a column to the quarter. -/
def FixesNoQuarter (m : Model) : Prop :=
  m.EachFormula fun u => !u.any Segment.fixesQuarter

/-- Tables, joins and columns have names such as `total_2024`. -/
def NamedByIdentifiers (m : Model) : Prop :=
  ∀ t ∈ m.tables, Text.isIdentifier t.name.toList = true ∧
    (∀ j ∈ t.joins, Text.isIdentifier j.name.toList = true) ∧
    ∀ c ∈ t.columns, Text.isIdentifier c.name.toList = true

instance : DecidablePred SpacesColumns :=
  fun m => inferInstanceAs (Decidable (m.EachFormula _))

instance : DecidablePred FixesNoQuarter :=
  fun m => inferInstanceAs (Decidable (m.EachFormula _))

instance : DecidablePred NamedByIdentifiers :=
  fun m => inferInstanceAs (Decidable (∀ t ∈ m.tables, _))

end Model

theorem Text.paren_not_mem_of_isIdentifier {text : List Char} (h : Text.isIdentifier text = true) :
    '(' ∉ text :=
  Text.not_mem_of_isIdentifier h (by decide)

theorem Column.grainFormula_mem_formulas {c : Column} {g : Grain} {text : String}
    (h : (c.grain? g).bind (·.formula) = some text) : text ∈ c.formulas := by
  refine List.mem_cons_of_mem _ (List.mem_filterMap.2 ⟨g, ?_, h⟩)
  cases g <;> decide

namespace Expansion

section

variable {m : Model} {d d' : Dialect} {scope : Scope m} {anywhere : Bool}

/-- What is asked of a template so that its text in one dialect may stand for that in another, be it
`anywhere` or where no word follows: that it takes nothing to a quarter which MySQL would truncate,
or that it lets no word follow a column. -/
def Tame (d' : Dialect) (anywhere : Bool) (u : Template) : Prop :=
  if anywhere then d' = .mysql → ∀ segment ∈ u, segment.fixesQuarter = false
  else u.isSpaced = true

theorem Tame.rest {segment : Segment} {rest : Template}
    (h : Tame d' anywhere (segment :: rest)) : Tame d' anywhere rest := by
  cases anywhere with
  | true => exact fun hd s hs => h hd s (List.mem_cons_of_mem _ hs)
  | false => exact (Bool.and_eq_true_iff.1 h).2

theorem Tame.beginsClear {segment : Segment} {rest : Template}
    (h : Tame d' anywhere (segment :: rest)) (hcolumn : segment.isColumn = true)
    (hwhere : anywhere = false) : Template.beginsClear rest = true := by
  subst hwhere
  have hfirst := (Bool.and_eq_true_iff.1 h).1
  rwa [hcolumn] at hfirst

theorem Tame.fixesNoQuarter {segment : Segment} {rest : Template}
    (h : Tame d' anywhere (segment :: rest)) (hwhere : anywhere = true) (hd : d' = .mysql) :
    segment.fixesQuarter = false := by
  subst hwhere
  exact h hd segment List.mem_cons_self

/-- What is asked of a model so that the texts of one dialect may stand for those of another. Names
are shortened to what a dialect takes, so they must call nothing, unless the other dialect is DuckDB,
which takes them whole. -/
structure Comparable (m : Model) (d' : Dialect) (anywhere : Bool) : Prop where
  tables : d' ≠ .duckdb → ∀ t ∈ m.tables, '(' ∉ t.name.toList
  joins : d' ≠ .duckdb → ∀ t ∈ m.tables, ∀ j ∈ t.joins, '(' ∉ j.name.toList
  formulas : ∀ c ∈ m.columns, ∀ text ∈ c.formulas, ∀ u, Template.parse text = .ok u →
    Tame d' anywhere u

/-! ## One segment -/

/-- No name of a path has a parenthesis, unless the other dialect takes names whole. -/
def Plain (d' : Dialect) (path : JoinPath) : Prop :=
  d' ≠ .duckdb → ∀ name ∈ path, '(' ∉ name.toList

/-- What all names of joins have, and those of a path, the names of a longer path have. -/
theorem Leads.forall_names {P : String → Prop} (hjoins : ∀ t ∈ m.tables, ∀ j ∈ t.joins, P j.name)
    {t u : m.Member} {path q : JoinPath} {joins : List String} (h : Leads t path joins u q)
    (hpath : ∀ name ∈ path, P name) : ∀ name ∈ q, P name := by
  induction h with
  | here => exact hpath
  | @along t u v path q name rest j hjoin htarget _ ih =>
    have hfound : t.1.joins.find? (·.name == name) = some j := hjoin
    have hname : j.name = name := by simpa using List.find?_some hfound
    have hfirst := hjoins t.1 t.2 j (List.mem_of_find?_eq_some hfound)
    rw [hname] at hfirst
    exact ih (List.forall_mem_append.2 ⟨hpath, List.forall_mem_singleton.2 hfirst⟩)

theorem Leads.plain (hm : Comparable m d' anywhere) {t u : m.Member} {path q : JoinPath}
    {joins : List String} (h : Leads t path joins u q) (hpath : Plain d' path) : Plain d' q :=
  fun hd => h.forall_names (hm.joins hd) (hpath hd)

/-- An alias has no parenthesis where the names it is made of have none. -/
theorem paren_not_mem_aliasFor {root : Table} {path : JoinPath} (hroot : '(' ∉ root.name.toList)
    (hpath : ∀ name ∈ path, '(' ∉ name.toList) (d : Dialect) :
    '(' ∉ (aliasFor d root path).toList := by
  refine paren_not_mem_fitName (fun hmem => ?_) d
  rcases Text.mem_of_mem_join hmem with hsep | ⟨name, hname, hmem⟩
  · exact absurd hsep (by decide)
  · rcases List.mem_cons.1 hname with rfl | hname
    · exact hroot hmem
    · exact hpath name hname hmem

/-- What an alias calls in one dialect it calls in the other. -/
theorem call_aliasFor (hm : Comparable m d' anywhere) (scope : Scope m) {path : JoinPath}
    (hpath : Plain d' path)
    (hcall : hasAggregateCall false (aliasFor d scope.root.1 path).toList = true) :
    hasAggregateCall false (aliasFor d' scope.root.1 path).toList = true := by
  by_cases hd : d' = .duckdb
  · subst hd
    exact hasAggregateCall_of_fitName hcall
  · have hnone := paren_not_mem_aliasFor (hm.tables hd _ scope.root.2) (hpath hd) d
    rw [hasAggregateCall_of_no_paren hnone] at hcall
    cases hcall

theorem keepsCalls_argumentLiteral (p : Option Parameter) (value : String) :
    KeepsCalls anywhere (argumentLiteral d p value) (argumentLiteral d' p value) := by
  unfold argumentLiteral
  split
  · exact .boolLiteral d d' _
  · exact .refl anywhere value

theorem keepsCalls_tableArgument {site : Site m} {base : Option String} {name value value' : String}
    (h : site.tableArgument? ⟨d, false⟩ scope name = some value)
    (h' : Site.tableArgument? ⟨d', false⟩ scope { site with base } name = some value') :
    KeepsCalls anywhere value value' := by
  unfold Site.tableArgument? at h h'
  dsimp only at h h'
  generalize (if site.path = [] then scope.arguments.get? name
    else (site.table.1.parameter? name).bind (·.default)) = given at h h'
  cases given with
  | none => cases h
  | some v =>
    cases h
    cases h'
    exact keepsCalls_argumentLiteral _ v

theorem keepsCalls_argument {site : Site m} {base : Option String} {name value value' : String}
    (h : site.argument? ⟨d, false⟩ scope name = some value)
    (h' : Site.argument? ⟨d', false⟩ scope { site with base } name = some value') :
    KeepsCalls anywhere value value' := by
  unfold Site.argument? at h h'
  dsimp only at h h'
  cases hgiven : site.arguments.get? name with
  | none =>
    rw [hgiven] at h h'
    exact keepsCalls_tableArgument h h'
  | some v =>
    rw [hgiven] at h h'
    cases h
    cases h'
    exact keepsCalls_argumentLiteral _ v

theorem clear_of_beginsClear {mode : Mode} {site : Site m} {u : Template} {out : String}
    {ps : List JoinPath} (h : Denotes mode scope site u out ps) (hu : u.beginsClear = true)
    {after : List Char} (hafter : Clear after) : Clear (out.toList ++ after) := by
  have hfirst : ∀ {c : Char} {text : List Char}, Text.isWordChar c = false → Clear (c :: text) := by
    intro c text hc c' hc'
    cases hc'
    exact hc
  cases h with
  | done => exact hafter
  | @literal _ text _ out _ hrest =>
    obtain ⟨c, hc, hword⟩ := (Option.any_eq_true ..).1 hu
    obtain ⟨more, hmore⟩ := List.head?_eq_some_iff.1 hc
    rw [String.toList_append, hmore]
    exact hfirst (by simpa using hword)
  | physical hjoins hrest =>
    have hdelimiter : Text.isWordChar mode.dialect.nameDelimiters.1 = false := by
      cases mode.dialect <;> decide
    rw [Dialect.quoteName, Text.enclose]
    simp only [String.toList_append, String.toList_ofList, List.cons_append]
    exact hfirst hdelimiter
  | logical => cases hu
  | pinned => cases hu
  | columnArgument => cases hu
  | tableArgument => cases hu
  | columnBase => cases hu

theorem grainAt_ne_quarter {joins : List String} {name : String} {values : Arguments}
    (h : (Segment.pinned joins name values).fixesQuarter = false) (c : Column) :
    c.grainAt values none ≠ some .quarter := by
  unfold Column.grainAt
  split
  · simp
  · split
    · rename_i v hv
      rw [Segment.fixesQuarter, hv] at h
      simpa using h
    · simp

/-! ## What formulas stand for -/

mutual

/-- The text of a template in one dialect may stand for that in another, if inside the formula of a
grain the text of its column may. -/
theorem Denotes.keepsCalls (hm : Comparable m d' anywhere) {site : Site m} {u : Template}
    {out : String} {ps : List JoinPath} : Denotes ⟨d, false⟩ scope site u out ps →
    Plain d' site.path → Tame d' anywhere u →
    ∀ {base : Option String} {out' : String} {ps' : List JoinPath},
      Denotes ⟨d', false⟩ scope { site with base } u out' ps' →
      (∀ b ∈ site.base, ∀ b' ∈ base, KeepsCalls anywhere b b') → KeepsCalls anywhere out out'
  | .done, _, _, _, _, _, .done, _ => .refl anywhere ""
  | .literal hrest, hpath, hu, _, _, _, .literal hrest', hbase => by
    have hkeeps := Denotes.keepsCalls hm hrest hpath hu.rest hrest' hbase
    exact (KeepsCalls.refl true _).append hkeeps nofun
  | .physical hjoins hrest, hpath, hu, _, _, _, .physical hjoins' hrest', hbase => by
    obtain ⟨rfl, rfl⟩ := hjoins.unique hjoins'
    have hkeeps := Denotes.keepsCalls hm hrest hpath hu.rest hrest' hbase
    have hcall := call_aliasFor (d := d) hm scope (hjoins.plain hm hpath)
    exact (KeepsCalls.quoted true d d' _ hcall).append hkeeps nofun
  | .logical hjoins hcolumn hrest, hpath, hu, _, _, _, .logical hjoins' hcolumn' hrest', hbase => by
    obtain ⟨rfl, rfl⟩ := hjoins.unique hjoins'
    have hkeeps := Denotes.keepsCalls hm hrest hpath hu.rest hrest' hbase
    have hnone : ∀ c : Column, c.grainAt .empty none ≠ some .quarter := by
      intro c
      rw [grainAt_empty]
      exact nofun
    have hfirst := Expands.keepsCalls hm hcolumn (hjoins.plain hm hpath)
      (fun hwhere => ⟨hwhere, fun _ => hnone⟩) hcolumn'
    -- where the text is not kept before words, what the template goes on with begins none
    exact hfirst.append hkeeps fun hwhere after hafter =>
      clear_of_beginsClear hrest (hu.beginsClear rfl hwhere) (hafter hwhere)
  | .pinned hjoins hcolumn hrest, hpath, hu, _, _, _, .pinned hjoins' hcolumn' hrest', hbase => by
    obtain ⟨rfl, rfl⟩ := hjoins.unique hjoins'
    have hkeeps := Denotes.keepsCalls hm hrest hpath hu.rest hrest' hbase
    have hfirst := Expands.keepsCalls hm hcolumn (hjoins.plain hm hpath)
      (fun hwhere => ⟨hwhere, fun hd => grainAt_ne_quarter (hu.fixesNoQuarter hwhere hd)⟩) hcolumn'
    exact hfirst.append hkeeps fun hwhere after hafter =>
      clear_of_beginsClear hrest (hu.beginsClear rfl hwhere) (hafter hwhere)
  | .columnArgument hvalue hrest, hpath, hu, _, _, _, .columnArgument hvalue' hrest', hbase => by
    have hkeeps := Denotes.keepsCalls hm hrest hpath hu.rest hrest' hbase
    have hfirst : KeepsCalls true _ _ := keepsCalls_argument hvalue hvalue'
    exact hfirst.append hkeeps nofun
  | .tableArgument hvalue hrest, hpath, hu, _, _, _, .tableArgument hvalue' hrest', hbase => by
    have hkeeps := Denotes.keepsCalls hm hrest hpath hu.rest hrest' hbase
    have hfirst : KeepsCalls true _ _ := keepsCalls_tableArgument hvalue hvalue'
    exact hfirst.append hkeeps nofun
  | .columnBase hfirst hrest, hpath, hu, _, _, _, .columnBase hfirst' hrest', hbase => by
    have hkeeps := Denotes.keepsCalls hm hrest hpath hu.rest hrest' hbase
    exact (hbase _ hfirst _ hfirst').append hkeeps fun hwhere after hafter =>
      clear_of_beginsClear hrest (hu.beginsClear rfl hwhere) (hafter hwhere)

/-- The text of a column may stand for that in another dialect; taken to a quarter in MySQL, only
where no word follows. -/
theorem Expands.keepsCalls (hm : Comparable m d' anywhere) {t : m.Member} {path : JoinPath}
    {name : String} {fixed passed : Arguments} {asked : Option Grain} {sql : String}
    {ps : List JoinPath} : Expands ⟨d, false⟩ scope t path name fixed passed asked sql ps →
    Plain d' path → ∀ {here : Bool}, (here = true → anywhere = true ∧
      (d' = .mysql → ∀ c : Column, c.grainAt fixed asked ≠ some .quarter)) →
    ∀ {sql' : String} {ps' : List JoinPath},
      Expands ⟨d', false⟩ scope t path name fixed passed asked sql' ps' → KeepsCalls here sql sql'
  | .column (c := c) hcolumn harguments hformula hbase hgrain, hpath, _, hhere, _, _,
    .column hcolumn' harguments' hformula' hbase' hgrain' => by
    cases hcolumn.symm.trans hcolumn'
    cases Arguments.ext_get? fun name => (harguments name).trans (harguments' name).symm
    cases hformula.symm.trans hformula'
    have hu := hm.formulas c.1 c.2 _ List.mem_cons_self _ hformula
    have hkeeps := Denotes.keepsCalls hm hbase hpath hu hbase' nofun
    exact Grained.keepsCalls hm hgrain rfl hpath hkeeps
      (fun hwhere => ⟨(hhere hwhere).1, fun hd => (hhere hwhere).2 hd c.1⟩) hgrain'

/-- The text of a column at a grain may stand for that in another dialect if its text without one
may. -/
theorem Grained.keepsCalls (hm : Comparable m d' anywhere) {site : Site m} {c : m.AnyColumn}
    {grain : Option Grain} {base sql : String} {ps : List JoinPath} :
    Grained ⟨d, false⟩ scope site grain base sql ps → site.column = some c → Plain d' site.path →
    ∀ {base' : String}, KeepsCalls anywhere base base' → ∀ {here : Bool},
    (here = true → anywhere = true ∧ (d' = .mysql → grain ≠ some .quarter)) →
    ∀ {sql' : String} {ps' : List JoinPath},
      Grained ⟨d', false⟩ scope site grain base' sql' ps' → KeepsCalls here sql sql'
  | .none, _, _, _, hbase, _, hhere, _, _, .none => hbase.mono fun h => (hhere h).1
  | .none, _, _, _, hbase, _, hhere, _, _, .unnamed _ => hbase.mono fun h => (hhere h).1
  | .unnamed hnone, hc, _, _, _, _, _, _, _, _ => by cases hnone.symm.trans hc
  | _, hc, _, _, _, _, _, _, _, .unnamed hnone => by cases hnone.symm.trans hc
  | .truncated _ _ hsql, _, _, _, hbase, _, hhere, _, _, .truncated _ _ hsql' =>
    hbase.truncated hsql hsql' fun h hd hg => (hhere h).2 hd (congrArg some hg)
  | .truncated hcolumn hformula _, _, _, _, _, _, _, _, _, .formula hcolumn' hformula' _ _ => by
    cases hcolumn.symm.trans hcolumn'
    cases hformula.symm.trans hformula'
  | .formula hcolumn hformula _ _, _, _, _, _, _, _, _, _, .truncated hcolumn' hformula' _ => by
    cases hcolumn.symm.trans hcolumn'
    cases hformula.symm.trans hformula'
  | .formula (c := c) hcolumn hformula hread hsql, _, hpath, _, hbase, _, hhere, _, _,
    .formula hcolumn' hformula' hread' hsql' => by
    cases hcolumn.symm.trans hcolumn'
    cases hformula.symm.trans hformula'
    cases hread.symm.trans hread'
    have hu := hm.formulas c.1 c.2 _ (Column.grainFormula_mem_formulas hformula) _ hread
    have hkeeps := Denotes.keepsCalls hm hsql hpath hu hsql' fun b hb b' hb' => by
      cases hb
      cases hb'
      exact hbase
    exact hkeeps.mono fun h => (hhere h).1

end

end

/-- Names without parentheses are enough, unless the other dialect is MySQL. -/
theorem comparable_of_named {m : Model} {d' : Dialect} (hnames : m.NamedByIdentifiers)
    (hformulas : d' = .mysql → m.SpacesColumns ∨ m.FixesNoQuarter) :
    ∃ anywhere, Comparable m d' anywhere := by
  have htables : d' ≠ .duckdb → ∀ t ∈ m.tables, '(' ∉ t.name.toList := fun _ t ht =>
    Text.paren_not_mem_of_isIdentifier (hnames t ht).1
  have hjoins : d' ≠ .duckdb → ∀ t ∈ m.tables, ∀ j ∈ t.joins, '(' ∉ j.name.toList :=
    fun _ t ht j hj => Text.paren_not_mem_of_isIdentifier ((hnames t ht).2.1 j hj)
  have hread : ∀ {text : String} {u : Template}, Template.parse text = .ok u →
      u ∈ (Template.parse text).toOption := by
    intro text u hu
    rw [hu]
    rfl
  by_cases hfree : d' = .mysql → m.FixesNoQuarter
  · refine ⟨true, htables, hjoins, fun c hc text htext u hu hd segment hmem => ?_⟩
    have hnone := hfree hd c hc text htext u (hread hu)
    rw [Bool.not_eq_true', List.any_eq_false] at hnone
    exact Bool.eq_false_iff.2 (hnone segment hmem)
  · obtain ⟨hd, hfixes⟩ : d' = .mysql ∧ ¬ m.FixesNoQuarter := by simpa using hfree
    have hspaced := (hformulas hd).resolve_right hfixes
    exact ⟨false, htables, hjoins, fun c hc text htext u hu =>
      hspaced c hc text htext u (hread hu)⟩

/-- The texts of any dialect may stand for those of DuckDB. -/
theorem comparable_duckdb (m : Model) : Comparable m .duckdb true :=
  ⟨fun hd => (hd rfl).elim, fun hd => (hd rfl).elim, fun _ _ _ _ _ _ hd => by cases hd⟩

/-- A column whose text calls an aggregate in one dialect calls one in another as well, unless that
is MySQL and formulas write words behind columns and take columns to the quarter. -/
theorem expandColumn_embedsAggregate {m : Model} {d d' : Dialect} {scope : Scope m}
    {path : JoinPath} {column : String} {arguments : Arguments} {grain : Option Grain}
    {f f' : Fragment} {anywhere : Bool} (hm : Comparable m d' anywhere)
    (h : expandColumn ⟨d, false⟩ scope path column arguments grain = .ok f)
    (h' : expandColumn ⟨d', false⟩ scope path column arguments grain = .ok f')
    (hcall : embedsAggregate f.sql = true) : embedsAggregate f'.sql = true := by
  obtain ⟨_, ⟨t, reached, _, hleads, hexpands, -⟩, -⟩ := standsFor_of_expandColumn h
  obtain ⟨_, ⟨t', reached', _, hleads', hexpands', -⟩, -⟩ := standsFor_of_expandColumn h'
  obtain ⟨rfl, rfl⟩ := hleads.unique hleads'
  have hpath : Plain d' reached := hleads.plain hm fun _ => nofun
  have hkeeps : KeepsCalls false f.sql f'.sql :=
    hexpands.keepsCalls hm hpath (fun h : false = true => nomatch h) hexpands'
  exact hkeeps.embedsAggregate hcall

end Expansion

end Rollup
