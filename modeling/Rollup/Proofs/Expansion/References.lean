/-
What columns refer to. A column is expanded by its formula and by the formula of its grain; these
open other columns, in the tables their joins lead to, and name database columns of such tables.
All this can be read off the model, without a dialect and without the values of arguments. Every
table whose database columns are named is at the end of a path that the expansion walks.
-/
import Rollup.Proofs.Expansion.Stack

namespace Rollup

namespace Expansion

/-- A column of a table at the end of a path, at a grain. -/
structure Ref (m : Model) where
  table : m.Member
  path : JoinPath
  column : m.AnyColumn
  grain : Option Grain

section

variable {m : Model}

/-! ## References -/

/-- The templates a column is expanded by. -/
inductive Ref.Uses (r : Ref m) : Template → Prop
  | formula {u : Template} (hread : Template.parse r.column.1.formula = .ok u) : Uses r u
  | grain {g : Grain} {text : String} {u : Template} (hgrain : r.grain = some g)
    (htext : (r.column.1.grain? g).bind (·.formula) = some text)
    (hread : Template.parse text = .ok u) : Uses r u

/-- The column that a segment opens, in a template read in a table at the end of a path. -/
inductive Opens (t : m.Member) (path : JoinPath) : Segment → Ref m → Prop
  | logical {joins name u q c} (hjoins : Leads t path joins u q)
    (hcolumn : Model.Member.column? u name = some c) :
    Opens t path (.reference joins (.logical name)) ⟨u, q, c, none⟩
  | pinned {joins name values u q c} (hjoins : Leads t path joins u q)
    (hcolumn : Model.Member.column? u name = some c) :
    Opens t path (.pinned joins name values) ⟨u, q, c, c.1.grainAt values none⟩

/-- A column opens another one while it is expanded. -/
def Ref.Refers (r s : Ref m) : Prop :=
  ∃ u, r.Uses u ∧ ∃ segment ∈ u, Opens r.table r.path segment s

/-- The paths to the tables whose database columns a template names, in its own text or in that of
the columns it opens. -/
inductive Names : m.Member → JoinPath → Template → JoinPath → Prop
  | physical {t path u joins name v q} (hmem : Segment.reference joins (.physical name) ∈ u)
    (hjoins : Leads t path joins v q) : Names t path u q
  | column {t path u segment r v q} (hmem : segment ∈ u) (hopens : Opens t path segment r)
    (huses : Ref.Uses r v) (hnames : Names r.table r.path v q) : Names t path u q

/-- The paths to the tables whose database columns the expansion of a column names. -/
def Ref.Names (r : Ref m) (q : JoinPath) : Prop :=
  ∃ u, r.Uses u ∧ Expansion.Names r.table r.path u q

theorem Leads.append {t u v : m.Member} {path q r : JoinPath} {joins more : List String}
    (h : Leads t path joins u q) (h' : Leads u q more v r) : Leads t path (joins ++ more) v r := by
  induction h with
  | here => exact h'
  | along hjoin htarget _ ih => exact .along hjoin htarget (ih h')

theorem grainAt_empty (c : Column) (asked : Option Grain) : c.grainAt .empty asked = asked := by
  unfold Column.grainAt
  split <;> rfl

/-- A reference leads on along the joins it is made of. -/
theorem Opens.path_eq {t : m.Member} {path : JoinPath} {segment : Segment} {r : Ref m}
    (h : Opens t path segment r) : ∃ joins, r.path = path ++ joins ∧
      Leads t path joins r.table r.path := by
  cases h with
  | logical hjoins _ => exact ⟨_, hjoins.path_eq, hjoins⟩
  | pinned hjoins _ => exact ⟨_, hjoins.path_eq, hjoins⟩

/-- The column that is opened is one of the table it is opened in. -/
theorem Opens.column_eq {t : m.Member} {path : JoinPath} {segment : Segment} {r : Ref m}
    (h : Opens t path segment r) : ∃ name, Model.Member.column? r.table name = some r.column := by
  cases h with
  | logical _ hcolumn => exact ⟨_, hcolumn⟩
  | pinned _ hcolumn => exact ⟨_, hcolumn⟩

/-- A segment opens one column at most. -/
theorem Opens.unique {t : m.Member} {path : JoinPath} {segment : Segment} {r s : Ref m}
    (h : Opens t path segment r) (h' : Opens t path segment s) : r = s := by
  cases h with
  | logical hjoins hcolumn =>
    cases h' with | logical hjoins' hcolumn' =>
    obtain ⟨rfl, rfl⟩ := hjoins.unique hjoins'
    cases hcolumn.symm.trans hcolumn'
    rfl
  | pinned hjoins hcolumn =>
    cases h' with | pinned hjoins' hcolumn' =>
    obtain ⟨rfl, rfl⟩ := hjoins.unique hjoins'
    cases hcolumn.symm.trans hcolumn'
    rfl

/-! ## Walks -/

variable {mode : Mode} {scope : Scope m}

/-- What stands for a template stands for it from any of its segments on. -/
theorem Denotes.from_segment {site : Site m} {u : Template} {out : String} {ps : List JoinPath}
    {segment : Segment} (h : Denotes mode scope site u out ps) (hmem : segment ∈ u) :
    ∃ rest out' ps', Denotes mode scope site (segment :: rest) out' ps' ∧ ps' ⊆ ps := by
  induction u generalizing out ps with
  | nil => cases hmem
  | cons first rest ih =>
    rcases List.mem_cons.1 hmem with rfl | hlater
    · exact ⟨rest, out, ps, h, List.Subset.refl _⟩
    · cases h with
      | literal hrest | columnArgument _ hrest | tableArgument _ hrest | columnBase _ hrest =>
        exact ih hrest hlater
      | physical _ hrest =>
        obtain ⟨rest', out', ps', hfrom, hsub⟩ := ih hrest hlater
        exact ⟨rest', out', ps', hfrom, List.subset_cons_of_subset _ hsub⟩
      | logical _ _ hrest | pinned _ _ hrest =>
        obtain ⟨rest', out', ps', hfrom, hsub⟩ := ih hrest hlater
        exact ⟨rest', out', ps', hfrom,
          List.subset_cons_of_subset _ (List.subset_append_of_subset_right _ hsub)⟩

/-- The joins to a database column are walked. -/
theorem Denotes.walks_physical {site : Site m} {u : Template} {out : String} {ps : List JoinPath}
    {joins : List String} {name : String} (h : Denotes mode scope site u out ps)
    (hmem : Segment.reference joins (.physical name) ∈ u) :
    ∃ t q, Leads site.table site.path joins t q ∧ q ∈ ps := by
  obtain ⟨_, _, _, hfrom, hsub⟩ := h.from_segment hmem
  cases hfrom with
  | physical hjoins _ => exact ⟨_, _, hjoins, hsub List.mem_cons_self⟩

/-- A column that is opened is expanded on the way. -/
theorem Denotes.expands_opened {site : Site m} {u : Template} {out : String} {ps : List JoinPath}
    {segment : Segment} {r : Ref m} (h : Denotes mode scope site u out ps) (hmem : segment ∈ u)
    (hopens : Opens site.table site.path segment r) :
    ∃ name fixed sql walked, Model.Member.column? r.table name = some r.column ∧
      r.grain = r.column.1.grainAt fixed none ∧
      Expands mode scope r.table r.path name fixed site.arguments none sql walked ∧
      walked ⊆ ps := by
  obtain ⟨_, _, _, hfrom, hsub⟩ := h.from_segment hmem
  cases hopens with
  | logical hjoins hcolumn =>
    cases hfrom with
    | @logical _ _ _ _ _ _ sql walked _ _ hjoins' hexpands _ =>
      obtain ⟨rfl, rfl⟩ := hjoins.unique hjoins'
      exact ⟨_, .empty, sql, walked, hcolumn, (grainAt_empty _ _).symm, hexpands, fun q hq =>
        hsub (List.mem_cons_of_mem _ (List.mem_append_left _ hq))⟩
  | @pinned _ _ values _ _ _ hjoins hcolumn =>
    cases hfrom with
    | @pinned _ _ _ _ _ _ _ sql walked _ _ hjoins' hexpands _ =>
      obtain ⟨rfl, rfl⟩ := hjoins.unique hjoins'
      exact ⟨_, values, sql, walked, hcolumn, rfl, hexpands, fun q hq =>
        hsub (List.mem_cons_of_mem _ (List.mem_append_left _ hq))⟩

/-- Every template of a column is read when the column is expanded. -/
theorem Expands.denotes_used {t : m.Member} {path : JoinPath} {name : String}
    {fixed passed : Arguments} {asked : Option Grain} {sql : String} {ps : List JoinPath}
    {c : m.AnyColumn} {u : Template}
    (h : Expands mode scope t path name fixed passed asked sql ps)
    (hcolumn : Model.Member.column? t name = some c)
    (huses : Ref.Uses ⟨t, path, c, c.1.grainAt fixed asked⟩ u) :
    ∃ arguments base out qs,
      (∀ name, arguments.get? name = lateBound fixed passed c.1.parameters name) ∧
      Denotes mode scope ⟨t, path, some c, arguments, base⟩ u out qs ∧ qs ⊆ ps := by
  cases h with
  | @column _ _ _ _ _ _ arguments base _ ps qs c' v hcolumn' hvalues hformula hbase hgrain =>
    cases hcolumn.symm.trans hcolumn'
    cases huses with
    | formula hread =>
      cases hformula.symm.trans hread
      exact ⟨arguments, none, base, ps, hvalues, hbase, List.subset_append_left _ _⟩
    | @grain g text u hasked htext hread =>
      -- the grain has a formula, so it is not left to the dialect
      dsimp only at hasked htext
      rw [hasked] at hgrain
      cases hgrain with
      | unnamed hnone => cases hnone
      | truncated hsome hnone _ =>
        cases hsome
        cases hnone.symm.trans htext
      | formula hsome hsome' hread' hsql =>
        cases hsome
        cases hsome'.symm.trans htext
        cases hread'.symm.trans hread
        exact ⟨arguments, some base, sql, qs, hvalues, hsql, List.subset_append_right _ _⟩

/-- The table of every database column that a template names is at the end of a walked path. -/
theorem Names.walked {t : m.Member} {path : JoinPath} {u : Template} {q : JoinPath}
    (h : Names t path u q) {column : Option m.AnyColumn} {arguments : Arguments}
    {base : Option String} {out : String} {ps : List JoinPath}
    (hdenotes : Denotes mode scope ⟨t, path, column, arguments, base⟩ u out ps) : q ∈ ps := by
  induction h generalizing column arguments base out ps with
  | physical hmem hjoins =>
    obtain ⟨v, q', hleads, hq⟩ := hdenotes.walks_physical hmem
    obtain ⟨-, rfl⟩ := hjoins.unique hleads
    exact hq
  | @column _ _ _ _ r v _ hmem hopens huses _ ih =>
    obtain ⟨name, fixed, sql, walked, hcolumn, hgrain, hexpands, hsub⟩ :=
      hdenotes.expands_opened hmem hopens
    have hread : Ref.Uses ⟨r.table, r.path, r.column, r.column.1.grainAt fixed none⟩ v := by
      rwa [← hgrain]
    obtain ⟨_, _, _, qs, -, hused, hqs⟩ := hexpands.denotes_used hcolumn hread
    exact hsub (hqs (ih hused))

theorem Ref.Names.walked {t : m.Member} {path : JoinPath} {name : String}
    {fixed passed : Arguments} {asked : Option Grain} {sql : String} {ps : List JoinPath}
    {c : m.AnyColumn} {q : JoinPath} (h : Ref.Names ⟨t, path, c, c.1.grainAt fixed asked⟩ q)
    (hcolumn : Model.Member.column? t name = some c)
    (hexpands : Expands mode scope t path name fixed passed asked sql ps) : q ∈ ps := by
  obtain ⟨u, huses, hnames⟩ := h
  obtain ⟨_, _, _, qs, -, hused, hqs⟩ := hexpands.denotes_used hcolumn huses
  exact hqs (hnames.walked hused)

/-- A column that is expanded has the text it stands for, and every path walked for it is at the root
or among the joins it reads through. -/
theorem standsFor_of_expandColumn {path : JoinPath} {column : String} {arguments : Arguments}
    {grain : Option Grain} {f : Fragment}
    (h : expandColumn mode scope path column arguments grain = .ok f) :
    ∃ walked, StandsFor mode scope path column arguments grain f.sql walked ∧
      ∀ q ∈ walked, q = [] ∨ q ∈ f.joins := by
  obtain ⟨⟨t, reached⟩, hwalk, h⟩ := bind_ok h
  obtain ⟨opened, hopen, hrun⟩ := bind_ok h
  obtain ⟨sql, ps, qs, hcompletes, hhands, hjoins⟩ := yields_of_run hrun
  obtain ⟨hpath, hexpands⟩ := openColumn_ok mode scope hopen
  have hexpands := hexpands _ _ hcompletes
  cases hhands
  refine ⟨reached :: ps, ⟨t, reached, ps, leads_of_walk hwalk, hexpands, rfl⟩, fun q hq => ?_⟩
  by_cases hroot : q = []
  · exact .inl hroot
  · refine .inr ((hjoins q).2 ?_)
    rw [List.append_nil, hpath, JoinPath.mem_record_or_covered]
    exact ⟨hroot, q, hq, List.prefix_refl q⟩

/-- What an expansion of a column names is at the root or behind joins that it reads through. -/
theorem names_of_expandColumn {path : JoinPath} {column : String} {arguments : Arguments}
    {grain : Option Grain} {f : Fragment}
    (h : expandColumn mode scope path column arguments grain = .ok f) :
    ∃ t c, tableAt scope.root path = .ok t ∧ Model.Member.column? t column = some c ∧
      ∀ q, Ref.Names ⟨t, path, c, grain⟩ q → q = [] ∨ q ∈ f.joins := by
  obtain ⟨walked, ⟨t, reached, ps, hleads, hexpands, rfl⟩, hjoins⟩ := standsFor_of_expandColumn h
  obtain rfl : reached = path := by rw [hleads.path_eq, List.nil_append]
  obtain ⟨c, hcolumn⟩ : ∃ c, Model.Member.column? t column = some c := by
    cases hexpands with | column hcolumn _ _ _ _ => exact ⟨_, hcolumn⟩
  refine ⟨t, c, tableAt_eq_ok_iff.2 hleads, hcolumn, fun q hq => hjoins q ?_⟩
  rw [← grainAt_empty c.1 grain] at hq
  exact List.mem_cons_of_mem _ (hq.walked hcolumn hexpands)

end

end Expansion

end Rollup
