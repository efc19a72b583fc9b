/-
What a formula stands for, said by plain recursion: a literal is copied, a database column is named
under the alias of its table, and a column of the model is replaced by what it expands to in the
table its joins lead to. There is no stack and no limit here; a formula that leads into a circle
stands for nothing. What a formula stands for, and the joins walked on the way, are unique.
-/
import Rollup.Expansion.Memo
import Rollup.Proofs.Expansion.Basic
import Rollup.Proofs.Model.Arguments

namespace Rollup

/-! ## The values a column is opened with -/

/-- The default of a declared argument. No checked model declares a name twice; otherwise the last
default counts. -/
def lastDefault (ps : List Parameter) (name : String) : Option String :=
  ((ps.filter (·.name == name)).filterMap (·.default)).getLast?

/-- The value of a declared argument when its column is referred to: the one the reference fixes,
else the one of the column that refers to it, else the default. -/
def lateBound (fixed passed : Arguments) (ps : List Parameter) (name : String) : Option String :=
  if (ps.find? (·.name == name)).isSome then
    (fixed.get? name).or ((passed.get? name).or (lastDefault ps name))
  else none

/-- The grain a column is taken at: one that the reference fixes stands before the one asked for. -/
def Column.grainAt (c : Column) (fixed : Arguments) (asked : Option Grain) : Option Grain :=
  if (c.parameter? "grain").isSome then asked
  else match fixed.get? "grain" with
    | some value => (Grain.parse value).toOption
    | none => asked

namespace Expansion

/-! ## What formulas stand for -/

/-- Where a formula is read. -/
structure Site (m : Model) where
  table : m.Member
  path : JoinPath
  /-- The column it belongs to; none for the condition of a join. -/
  column : Option m.AnyColumn
  arguments : Arguments
  /-- What the column stands for without a grain, inside the formula of its grain. -/
  base : Option String

/-- Joins lead from one table, at the end of a path, to another. -/
inductive Leads {m : Model} : m.Member → JoinPath → List String → m.Member → JoinPath → Prop
  | here {t path} : Leads t path [] t path
  | along {t u v path q name rest} {j : Join} (hjoin : t.1.join? name = some j)
    (htarget : m.member? j.table = some u) (hrest : Leads u (path ++ [name]) rest v q) :
    Leads t path (name :: rest) v q

section

variable {m : Model} (mode : Mode) (scope : Scope m)

/-- The literal for an argument of the table: of the statement's own table the value in scope, of
any other the default. -/
def Site.tableArgument? (site : Site m) (name : String) : Option String :=
  let declared := site.table.1.parameter? name
  match if site.path = [] then scope.arguments.get? name else declared.bind (·.default) with
  | some value => some (argumentLiteral mode.dialect declared value)
  | none => if mode.lenient then some name else none

/-- The literal for an argument of the column, or of the table when the column has none. -/
def Site.argument? (site : Site m) (name : String) : Option String :=
  match site.arguments.get? name with
  | some value => some (argumentLiteral mode.dialect (site.column.bind (·.1.parameter? name)) value)
  | none => site.tableArgument? mode scope name

mutual

/-- What a template stands for at a site, and the paths of joins walked for it, in order. -/
inductive Denotes : Site m → Template → String → List JoinPath → Prop
  | done {site} : Denotes site [] "" []
  | literal {site text rest out ps} (hrest : Denotes site rest out ps) :
    Denotes site (.literal text :: rest) (text ++ out) ps
  | physical {site joins name rest t path out ps}
    (hjoins : Leads site.table site.path joins t path) (hrest : Denotes site rest out ps) :
    Denotes site (.reference joins (.physical name) :: rest)
      (mode.dialect.quoteName (aliasFor mode.dialect scope.root.1 path) ++ "." ++
        mode.dialect.quoteName name ++ out) (path :: ps)
  | logical {site joins name rest t path sql walked out ps}
    (hjoins : Leads site.table site.path joins t path)
    (hcolumn : Expands t path name .empty site.arguments none sql walked)
    (hrest : Denotes site rest out ps) :
    Denotes site (.reference joins (.logical name) :: rest) (sql ++ out) (path :: (walked ++ ps))
  | pinned {site joins name values rest t path sql walked out ps}
    (hjoins : Leads site.table site.path joins t path)
    (hcolumn : Expands t path name values site.arguments none sql walked)
    (hrest : Denotes site rest out ps) :
    Denotes site (.pinned joins name values :: rest) (sql ++ out) (path :: (walked ++ ps))
  | columnArgument {site name rest value out ps}
    (hvalue : site.argument? mode scope name = some value) (hrest : Denotes site rest out ps) :
    Denotes site (.columnArgument name :: rest) (value ++ out) ps
  | tableArgument {site name rest value out ps}
    (hvalue : site.tableArgument? mode scope name = some value) (hrest : Denotes site rest out ps) :
    Denotes site (.tableArgument name :: rest) (value ++ out) ps
  | columnBase {site rest base out ps} (hbase : site.base = some base)
    (hrest : Denotes site rest out ps) : Denotes site (.columnBase :: rest) (base ++ out) ps

/-- What a column of a table stands for when it is referred to with some arguments fixed and others
passed on, at the grain asked for. -/
inductive Expands : m.Member → JoinPath → String → Arguments → Arguments → Option Grain → String →
    List JoinPath → Prop
  | column {t path name fixed passed asked arguments base sql ps qs} {c : m.AnyColumn}
    {u : Template} (hcolumn : Model.Member.column? t name = some c)
    (harguments : ∀ name, arguments.get? name = lateBound fixed passed c.1.parameters name)
    (hformula : Template.parse c.1.formula = .ok u)
    (hbase : Denotes ⟨t, path, some c, arguments, none⟩ u base ps)
    (hgrain : Grained ⟨t, path, some c, arguments, none⟩ (c.1.grainAt fixed asked) base sql qs) :
    Expands t path name fixed passed asked sql (ps ++ qs)

/-- What a column stands for at a grain, `base` being what it stands for without one: the grain's
own formula in place of the dialect's truncation. -/
inductive Grained : Site m → Option Grain → String → String → List JoinPath → Prop
  | none {site base} : Grained site none base base []
  | unnamed {site grain base} (hcolumn : site.column = none) : Grained site grain base base []
  | truncated {site g base sql} {c : m.AnyColumn} (hcolumn : site.column = some c)
    (hformula : (c.1.grain? g).bind (·.formula) = none)
    (hsql : Sql.truncate? mode.dialect g base = some sql) : Grained site (some g) base sql []
  | formula {site g base sql ps formula} {c : m.AnyColumn} {u : Template}
    (hcolumn : site.column = some c) (hformula : (c.1.grain? g).bind (·.formula) = some formula)
    (hread : Template.parse formula = .ok u)
    (hsql : Denotes { site with base := some base } u sql ps) : Grained site (some g) base sql ps

end

/-- What the column of a table reached from the root stands for, by plain recursion, and the paths
of joins walked for it. -/
def StandsFor (path : JoinPath) (column : String) (arguments : Arguments) (grain : Option Grain)
    (sql : String) (walked : List JoinPath) : Prop :=
  ∃ t reached ps, Leads scope.root [] path t reached ∧
    Expands mode scope t reached column .empty arguments grain sql ps ∧ walked = reached :: ps

/-! ## Uniqueness -/

theorem Leads.unique {t u v : m.Member} {path q r : JoinPath} {joins : List String}
    (hu : Leads t path joins u q) (hv : Leads t path joins v r) : u = v ∧ q = r := by
  induction hu with
  | here =>
    cases hv
    exact ⟨rfl, rfl⟩
  | along hjoin htarget _ ih =>
    cases hv with
    | along hjoin' htarget' hrest' =>
      rw [hjoin] at hjoin'
      cases hjoin'
      rw [htarget] at htarget'
      cases htarget'
      exact ih hrest'

variable {mode scope}

mutual

/-- A template stands for one text at most, and it is found over the same walks. -/
theorem Denotes.unique {site : Site m} {u : Template} {out : String} {ps : List JoinPath} :
    Denotes mode scope site u out ps → ∀ {out' : String} {ps' : List JoinPath},
      Denotes mode scope site u out' ps' → out = out' ∧ ps = ps'
  | .done, _, _, h' => by cases h'; exact ⟨rfl, rfl⟩
  | .literal hrest, _, _, .literal hrest' => by
    obtain ⟨rfl, rfl⟩ := Denotes.unique hrest hrest'
    exact ⟨rfl, rfl⟩
  | .physical hjoins hrest, _, _, .physical hjoins' hrest' => by
    obtain ⟨rfl, rfl⟩ := hjoins.unique hjoins'
    obtain ⟨rfl, rfl⟩ := Denotes.unique hrest hrest'
    exact ⟨rfl, rfl⟩
  | .logical hjoins hcolumn hrest, _, _, .logical hjoins' hcolumn' hrest' => by
    obtain ⟨rfl, rfl⟩ := hjoins.unique hjoins'
    obtain ⟨rfl, rfl⟩ := Expands.unique hcolumn hcolumn'
    obtain ⟨rfl, rfl⟩ := Denotes.unique hrest hrest'
    exact ⟨rfl, rfl⟩
  | .pinned hjoins hcolumn hrest, _, _, .pinned hjoins' hcolumn' hrest' => by
    obtain ⟨rfl, rfl⟩ := hjoins.unique hjoins'
    obtain ⟨rfl, rfl⟩ := Expands.unique hcolumn hcolumn'
    obtain ⟨rfl, rfl⟩ := Denotes.unique hrest hrest'
    exact ⟨rfl, rfl⟩
  | .columnArgument hvalue hrest, _, _, .columnArgument hvalue' hrest' => by
    cases hvalue.symm.trans hvalue'
    obtain ⟨rfl, rfl⟩ := Denotes.unique hrest hrest'
    exact ⟨rfl, rfl⟩
  | .tableArgument hvalue hrest, _, _, .tableArgument hvalue' hrest' => by
    cases hvalue.symm.trans hvalue'
    obtain ⟨rfl, rfl⟩ := Denotes.unique hrest hrest'
    exact ⟨rfl, rfl⟩
  | .columnBase hbase hrest, _, _, .columnBase hbase' hrest' => by
    cases hbase.symm.trans hbase'
    obtain ⟨rfl, rfl⟩ := Denotes.unique hrest hrest'
    exact ⟨rfl, rfl⟩

theorem Expands.unique {t : m.Member} {path : JoinPath} {name : String} {fixed passed : Arguments}
    {asked : Option Grain} {sql : String} {ps : List JoinPath} :
    Expands mode scope t path name fixed passed asked sql ps →
      ∀ {sql' : String} {ps' : List JoinPath},
        Expands mode scope t path name fixed passed asked sql' ps' → sql = sql' ∧ ps = ps'
  | .column hcolumn harguments hformula hbase hgrain, _, _,
    .column hcolumn' harguments' hformula' hbase' hgrain' => by
    cases hcolumn.symm.trans hcolumn'
    cases Arguments.ext_get? fun name => (harguments name).trans (harguments' name).symm
    cases hformula.symm.trans hformula'
    obtain ⟨rfl, rfl⟩ := Denotes.unique hbase hbase'
    obtain ⟨rfl, rfl⟩ := Grained.unique hgrain hgrain'
    exact ⟨rfl, rfl⟩

theorem Grained.unique {site : Site m} {grain : Option Grain} {base sql : String}
    {ps : List JoinPath} : Grained mode scope site grain base sql ps →
      ∀ {sql' : String} {ps' : List JoinPath},
        Grained mode scope site grain base sql' ps' → sql = sql' ∧ ps = ps'
  | .none, _, _, .none => ⟨rfl, rfl⟩
  | .none, _, _, .unnamed _ => ⟨rfl, rfl⟩
  | .unnamed _, _, _, .none => ⟨rfl, rfl⟩
  | .unnamed _, _, _, .unnamed _ => ⟨rfl, rfl⟩
  | .unnamed hcolumn, _, _, .truncated hcolumn' _ _ => by cases hcolumn.symm.trans hcolumn'
  | .unnamed hcolumn, _, _, .formula hcolumn' _ _ _ => by cases hcolumn.symm.trans hcolumn'
  | .truncated hcolumn _ _, _, _, .unnamed hcolumn' => by cases hcolumn.symm.trans hcolumn'
  | .truncated _ _ hsql, _, _, .truncated _ _ hsql' => by
    cases hsql.symm.trans hsql'
    exact ⟨rfl, rfl⟩
  | .truncated hcolumn hformula _, _, _, .formula hcolumn' hformula' _ _ => by
    cases hcolumn.symm.trans hcolumn'
    cases hformula.symm.trans hformula'
  | .formula hcolumn _ _ _, _, _, .unnamed hcolumn' => by cases hcolumn.symm.trans hcolumn'
  | .formula hcolumn hformula _ _, _, _, .truncated hcolumn' hformula' _ => by
    cases hcolumn.symm.trans hcolumn'
    cases hformula.symm.trans hformula'
  | .formula hcolumn hformula hread hsql, _, _, .formula hcolumn' hformula' hread' hsql' => by
    cases hcolumn.symm.trans hcolumn'
    cases hformula.symm.trans hformula'
    cases hread.symm.trans hread'
    exact Denotes.unique hsql hsql'

end

theorem StandsFor.unique {path : JoinPath} {column : String} {arguments : Arguments}
    {grain : Option Grain} {sql sql' : String} {walked walked' : List JoinPath}
    (h : StandsFor mode scope path column arguments grain sql walked)
    (h' : StandsFor mode scope path column arguments grain sql' walked') :
    sql = sql' ∧ walked = walked' := by
  obtain ⟨t, reached, ps, hleads, hsql, rfl⟩ := h
  obtain ⟨t', reached', ps', hleads', hsql', rfl⟩ := h'
  obtain ⟨rfl, rfl⟩ := hleads.unique hleads'
  obtain ⟨rfl, rfl⟩ := hsql.unique hsql'
  exact ⟨rfl, rfl⟩

end

end Expansion

end Rollup
