/-
Dangling references after the trial of a model. The trial reads every template of every column at its
own table, and from there joins and columns are found in the same way wherever the column is
reached. What it does not see is an argument: it takes the name of one that has no value. So where
every declared argument has a default, a reference still dangles at a query exactly if some formula
reads an argument that neither its column nor its table declares.
-/
import Rollup.Proofs.Expansion.Depth

namespace Rollup

/-! ## Declared arguments -/

/-- The formulas a column is expanded by: its own, and those of its grains. -/
def Column.formulas (c : Column) : List String :=
  c.formula :: Grain.all.filterMap fun g => (c.grain? g).bind (·.formula)

/-- An argument that a segment reads is declared by the table, or by the column where it is one of
the column's. -/
def Segment.isDeclared (t : Table) (c : Column) : Segment → Bool
  | .columnArgument name => (c.parameter? name).isSome || (t.parameter? name).isSome
  | .tableArgument name => (t.parameter? name).isSome
  | _ => true

namespace Model

/-- Every argument that a formula reads is declared. -/
def DeclaresArguments (m : Model) : Prop :=
  ∀ t ∈ m.tables, ∀ c ∈ t.columns, ∀ text ∈ c.formulas, ∀ u ∈ (Template.parse text).toOption,
    ∀ segment ∈ u, segment.isDeclared t c = true

/-- Every declared argument has a default. -/
def GivesDefaults (m : Model) : Prop :=
  ∀ t ∈ m.tables, (∀ p ∈ t.parameters, p.default.isSome = true) ∧
    ∀ c ∈ t.columns, ∀ p ∈ c.parameters, p.default.isSome = true

instance : DecidablePred DeclaresArguments :=
  fun m => inferInstanceAs (Decidable (∀ t ∈ m.tables, _))

instance : DecidablePred GivesDefaults :=
  fun m => inferInstanceAs (Decidable (∀ t ∈ m.tables, _))

end Model

/-! ## Values by default -/

theorem Table.isSome_defaults_get? (t : Table) (name : String) :
    (t.defaults.get? name).isSome = true ↔
      ∃ p ∈ t.parameters, p.name = name ∧ p.default.isSome = true := by
  unfold Table.defaults Arguments.ofList
  rw [Arguments.isSome_get?_foldl]
  simp only [show Arguments.empty.get? name = none from rfl, Option.isSome_none, Bool.false_eq_true,
    or_false, List.mem_filterMap, Option.map_eq_some_iff]
  constructor
  · rintro ⟨_, ⟨p, hp, v, hv, rfl⟩, rfl⟩
    exact ⟨p, hp, rfl, by rw [hv]; rfl⟩
  · rintro ⟨p, hp, rfl, hdefault⟩
    obtain ⟨v, hv⟩ := Option.isSome_iff_exists.1 hdefault
    exact ⟨_, ⟨p, hp, v, hv, rfl⟩, rfl⟩

theorem Table.isSome_parameter?_iff (t : Table) (name : String) :
    (t.parameter? name).isSome = true ↔ ∃ p ∈ t.parameters, p.name = name := by
  simp [Table.parameter?, List.find?_isSome]

/-- A declared argument is bound where all have defaults. -/
theorem isSome_lateBound {ps : List Parameter} (hps : ∀ p ∈ ps, p.default.isSome = true)
    {name : String} (hname : (ps.find? (·.name == name)).isSome = true)
    (fixed passed : Arguments) : (lateBound fixed passed ps name).isSome = true := by
  have hlast : (lastDefault ps name).isSome = true := by
    unfold lastDefault
    obtain ⟨p, hp⟩ := Option.isSome_iff_exists.1 hname
    obtain ⟨v, hv⟩ := Option.isSome_iff_exists.1 (hps p (List.mem_of_find?_eq_some hp))
    rw [List.getLast?_isSome]
    have hmem : p ∈ ps.filter (·.name == name) :=
      List.mem_filter.2 ⟨List.mem_of_find?_eq_some hp, by simpa using List.find?_some hp⟩
    exact List.ne_nil_of_mem (List.mem_filterMap.2 ⟨p, hmem, hv⟩)
  unfold lateBound
  rw [if_pos hname]
  simp [hlast]

namespace Expansion

section

variable {m : Model} {mode : Mode} {scope : Scope m}

/-- The scope has a value for every argument that its table declares. -/
def Scope.Full (scope : Scope m) : Prop :=
  ∀ name, (scope.root.1.parameter? name).isSome = true →
    (scope.arguments.get? name).isSome = true

theorem full_of_givesDefaults (hdefaults : m.GivesDefaults) (root : m.Member)
    (given : Arguments) : Scope.Full (Scope.of root given) := by
  intro name hname
  obtain ⟨p, hp, rfl⟩ := (Table.isSome_parameter?_iff _ _).1 hname
  have hdefault : (root.1.defaults.get? p.name).isSome = true :=
    (Table.isSome_defaults_get? _ _).2 ⟨p, hp, rfl, (hdefaults root.1 root.2).1 p hp⟩
  exact (Arguments.isSome_get?_foldl _ _ _).2 (.inr hdefault)

/-! ## What the trial shows of templates -/

/-- The joins of a segment lead somewhere from a table, and there is the column it opens. -/
inductive Linked (t : m.Member) : Segment → Prop
  | literal {text} : Linked t (.literal text)
  | physical {joins name u q} (hjoins : Leads t [] joins u q) :
    Linked t (.reference joins (.physical name))
  | logical {joins name u q c} (hjoins : Leads t [] joins u q)
    (hcolumn : Model.Member.column? u name = some c) : Linked t (.reference joins (.logical name))
  | pinned {joins name values u q c} (hjoins : Leads t [] joins u q)
    (hcolumn : Model.Member.column? u name = some c) : Linked t (.pinned joins name values)
  | columnArgument {name} : Linked t (.columnArgument name)
  | tableArgument {name} : Linked t (.tableArgument name)
  | columnBase : Linked t .columnBase

theorem Denotes.linked {site : Site m} {u : Template} {out : String} {ps : List JoinPath}
    (h : Denotes mode scope site u out ps) {segment : Segment} (hmem : segment ∈ u) :
    Linked site.table segment := by
  obtain ⟨_, _, _, hfrom, -⟩ := h.from_segment hmem
  cases hfrom with
  | literal _ => exact .literal
  | physical hjoins _ => exact .physical (hjoins.moved [])
  | logical hjoins hcolumn _ =>
    cases hcolumn with | column hcolumn _ _ _ _ => exact .logical (hjoins.moved []) hcolumn
  | pinned hjoins hcolumn _ =>
    cases hcolumn with | column hcolumn _ _ _ _ => exact .pinned (hjoins.moved []) hcolumn
  | columnArgument _ _ => exact .columnArgument
  | tableArgument _ _ => exact .tableArgument
  | columnBase _ _ => exact .columnBase

/-- The column itself is read inside the formula of a grain alone. -/
theorem Denotes.isSome_base {site : Site m} {u : Template} {out : String} {ps : List JoinPath}
    (h : Denotes mode scope site u out ps) (hmem : Segment.columnBase ∈ u) :
    site.base.isSome = true := by
  obtain ⟨_, _, _, hfrom, -⟩ := h.from_segment hmem
  cases hfrom with | columnBase hbase _ => rw [hbase]; rfl

/-- The templates of a column can be read, and their references lead somewhere. -/
structure Ref.Sound (r : Ref m) : Prop where
  formula : ∃ u, Template.parse r.column.1.formula = .ok u ∧ Segment.columnBase ∉ u
  grain : ∀ g text, r.grain = some g → (r.column.1.grain? g).bind (·.formula) = some text →
    ∃ u, Template.parse text = .ok u
  linked : ∀ u, r.Uses u → ∀ segment ∈ u, Linked r.table segment

theorem Expands.sound {t : m.Member} {path : JoinPath} {name : String} {fixed passed : Arguments}
    {asked : Option Grain} {sql : String} {ps : List JoinPath} {c : m.AnyColumn}
    (h : Expands mode scope t path name fixed passed asked sql ps)
    (hcolumn : Model.Member.column? t name = some c) :
    Ref.Sound ⟨t, path, c, c.1.grainAt fixed asked⟩ := by
  have hlinked : ∀ u, Ref.Uses ⟨t, path, c, c.1.grainAt fixed asked⟩ u → ∀ segment ∈ u,
      Linked t segment := by
    intro u huses segment hmem
    obtain ⟨_, _, _, _, -, hdenotes, -⟩ := h.denotes_used hcolumn huses
    exact hdenotes.linked hmem
  cases h with
  | @column _ _ _ _ _ _ _ _ _ _ _ c' v hcolumn' _ hformula hbase hgrain =>
    cases hcolumn.symm.trans hcolumn'
    refine ⟨⟨v, hformula, fun hmem => ?_⟩, fun g text hasked htext => ?_, hlinked⟩
    · cases hbase.isSome_base hmem
    · dsimp only at hasked htext
      rw [hasked] at hgrain
      cases hgrain with
      | unnamed hnone => cases hnone
      | truncated hsome hnone _ =>
        cases hsome
        cases hnone.symm.trans htext
      | formula hsome hsome' hread _ =>
        cases hsome
        cases hsome'.symm.trans htext
        exact ⟨_, hread⟩

/-- In an accepted model the templates of every column are sound, wherever it is reached. -/
theorem sound_of_check (h : m.check = .ok ()) {r : Ref m} (hr : r.InTable) : r.Sound := by
  obtain ⟨grain, f, hf, hgrain⟩ := tried_of_check h hr
  obtain ⟨t, path, c, asked⟩ := r
  obtain ⟨name, hcolumn⟩ := hr
  obtain ⟨-, rfl⟩ := name_of_column? hcolumn
  obtain ⟨_, ⟨u, _, _, hleads, hexpands, -⟩, -⟩ := standsFor_of_expandColumn hf
  cases hleads
  obtain ⟨hformula, hgrains, hlinked⟩ := hexpands.sound hcolumn
  rw [grainAt_empty] at hgrains hlinked
  refine ⟨hformula, fun g text hg htext => ?_, fun v huses => hlinked v ?_⟩
  · rcases hgrain with rfl | ⟨-, hnone⟩
    · exact hgrains g text hg htext
    · cases (hnone g hg).symm.trans htext
  · cases huses with
    | formula hread => exact .formula hread
    | @grain g _ _ hg htext hread =>
      rcases hgrain with rfl | ⟨-, hnone⟩
      · exact .grain hg htext hread
      · cases (hnone g hg).symm.trans htext

/-! ## Frames that find what they read -/

/-- A frame expands a column of a table reached from the root, with a value for every argument that
the column declares. -/
structure Frame.Provided (scope : Scope m) (f : Frame m) (r : Ref m) : Prop
    extends Frame.Stands f r where
  leads : Leads scope.root [] r.path r.table r.path
  inTable : r.InTable
  arguments : ∀ name, (r.column.1.parameter? name).isSome = true →
    (f.arguments.get? name).isSome = true
  base : Segment.columnBase ∈ f.rest → f.base.isSome = true

theorem provided_of_openColumn (hcheck : m.check = .ok ()) (hdefaults : m.GivesDefaults)
    {t : m.Member} {path : JoinPath} {name reference : String} {fixed passed : Arguments}
    {asked : Option Grain} {f : Frame.Opened m} (hleads : Leads scope.root [] path t path)
    (h : openColumn t path name fixed passed asked reference = .ok f) :
    ∃ r, Frame.Provided scope f.1 r := by
  obtain ⟨c, hcolumn, hstarts⟩ := starts_of_openColumn h
  obtain ⟨c', arguments, grain, u, hcolumn', harguments, -, hformula, hf⟩ := openColumn_eq h
  cases hcolumn.symm.trans hcolumn'
  have hinTable : Ref.InTable ⟨t, path, c, c.1.grainAt fixed asked⟩ := ⟨name, hcolumn⟩
  obtain ⟨hmem, -⟩ := name_of_column? hcolumn
  refine ⟨_, hstarts.toStands, hleads, hinTable, fun n hn => ?_, fun hbase => ?_⟩
  · rw [hf]
    dsimp only
    rw [bindArguments_ok harguments]
    exact isSome_lateBound ((hdefaults t.1 t.2).2 c.1 hmem) hn fixed passed
  · rw [hf] at hbase
    obtain ⟨v, hread, hnone⟩ := (sound_of_check hcheck hinTable).formula
    cases hformula.symm.trans hread
    exact (hnone hbase).elim

/-- A segment of a template of a column reads declared arguments only. -/
theorem isDeclared_of_uses (hdeclares : m.DeclaresArguments) {r : Ref m} (hr : r.InTable)
    {u : Template} (huses : r.Uses u) {segment : Segment} (hmem : segment ∈ u) :
    segment.isDeclared r.table.1 r.column.1 = true := by
  obtain ⟨name, hcolumn⟩ := hr
  obtain ⟨hc, -⟩ := name_of_column? hcolumn
  have hread : ∀ text ∈ r.column.1.formulas, Template.parse text = .ok u →
      segment.isDeclared r.table.1 r.column.1 = true := by
    intro text htext hread
    refine hdeclares r.table.1 r.table.2 r.column.1 hc text htext u ?_ segment hmem
    rw [hread]
    rfl
  cases huses with
  | formula h => exact hread _ List.mem_cons_self h
  | @grain g text _ _ htext h =>
    refine hread text (List.mem_cons_of_mem _ (List.mem_filterMap.2 ⟨g, ?_, htext⟩)) h
    cases g <;> decide

/-! ## Steps -/

theorem avoids_walk_of_leads {k : ErrorKind} {t u : m.Member} {path q : JoinPath}
    {joins : List String} (h : Leads t [] joins u q) (reference : String) :
    Avoids k (walk reference t path joins) := by
  rw [walk_of_leads (h.moved path)]
  exact avoids_ok _

theorem avoids_readTemplate {k : ErrorKind} {text : String} {u : Template}
    (h : Template.parse text = .ok u) (t : Table) (reference : String) :
    Avoids k (readTemplate t reference text) := by
  rw [readTemplate_eq h]
  exact avoids_ok _

theorem avoids_openColumn {t : m.Member} {c : m.AnyColumn} {name : String}
    (hcolumn : Model.Member.column? t name = some c) {u : Template}
    (hread : Template.parse c.1.formula = .ok u) (path : JoinPath) (fixed passed : Arguments)
    (asked : Option Grain) (reference : String) :
    Avoids .unresolvable (openColumn t path name fixed passed asked reference) := by
  unfold openColumn
  split
  rotate_left
  · rename_i hnone
    exact (hnone c hcolumn).elim
  rename_i c' hcolumn'
  cases hcolumn.symm.trans hcolumn'
  refine Avoids.bind (avoids_bindArguments (by decide) _ _ _ _) fun arguments _ => ?_
  refine Avoids.bind (avoids_fixedGrain (by decide) _ _ _ _) fun grain _ => ?_
  have hopened : ∀ {α : Type} (f : _ → α), Avoids .unresolvable
      (readTemplate t.1 c.1.name c.1.formula >>= fun u => .ok (f u)) :=
    fun f => (avoids_readTemplate hread _ _).bind fun _ _ => avoids_ok _
  cases grain with
  | none => exact hopened _
  | some g =>
    dsimp only
    split
    · exact avoids_error (by simp [CompileError.kind])
    · exact hopened _

/-- An argument of the table has a value when it is declared. -/
theorem avoids_tableValue (hdefaults : m.GivesDefaults) (hfull : Scope.Full scope) {f : Frame m}
    (hhome : f.path = [] → f.table = scope.root) {name : String}
    (hname : (f.table.1.parameter? name).isSome = true) (context : String) :
    Avoids .unresolvable (tableValue mode scope f context name) := by
  unfold tableValue
  cases hpath : f.path with
  | nil =>
    obtain ⟨v, hv⟩ := Option.isSome_iff_exists.1 (hfull name (hhome hpath ▸ hname))
    simp only [hv]
    exact avoids_ok _
  | cons first rest =>
    obtain ⟨p, hp⟩ := Option.isSome_iff_exists.1 hname
    have hdefault := (hdefaults f.table.1 f.table.2).1 p (List.mem_of_find?_eq_some hp)
    obtain ⟨v, hv⟩ := Option.isSome_iff_exists.1 hdefault
    simp only [hp, Option.bind_some, hv]
    exact avoids_ok _

/-- The segments of a frame lead somewhere, and the arguments they read have values. -/
theorem avoids_action (hcheck : m.check = .ok ()) (hdeclares : m.DeclaresArguments)
    (hdefaults : m.GivesDefaults) (hfull : Scope.Full scope) {f : Frame m} {r : Ref m}
    (h : Frame.Provided scope f r) {segment : Segment} (hmem : segment ∈ f.rest) :
    Avoids .unresolvable (segment.action mode scope f) := by
  obtain ⟨u, huses, hused⟩ := h.ahead segment (.inl hmem)
  have hlinked : Linked f.table segment :=
    h.table ▸ (sound_of_check hcheck h.inTable).linked u huses segment hused
  have hdeclared := isDeclared_of_uses hdeclares h.inTable huses hused
  have hhome : f.path = [] → f.table = scope.root := by
    intro hpath
    have hleads := h.leads
    rw [← h.path, ← h.table, hpath] at hleads
    exact (hleads.unique .here).1
  have hopens : ∀ {t : m.Member} {name : String} {c : m.AnyColumn} (path : JoinPath)
      (fixed passed : Arguments) (reference : String), Model.Member.column? t name = some c →
      Avoids .unresolvable (openColumn t path name fixed passed none reference) := by
    intro t name c path fixed passed reference hcolumn
    have hinTable : Ref.InTable ⟨t, path, c, none⟩ := ⟨name, hcolumn⟩
    obtain ⟨v, hread, -⟩ := (sound_of_check hcheck hinTable).formula
    exact avoids_openColumn hcolumn hread _ _ _ _ _
  cases hlinked with
  | literal => exact avoids_ok _
  | physical hjoins => exact (avoids_walk_of_leads hjoins _).bind fun _ _ => avoids_ok _
  | logical hjoins hcolumn =>
    refine (avoids_walk_of_leads hjoins _).bind fun ⟨t, q⟩ hwalk => ?_
    obtain ⟨rfl, -⟩ := (leads_of_walk hwalk).unique (hjoins.moved f.path)
    exact (hopens _ _ _ _ hcolumn).bind fun _ _ => avoids_ok _
  | pinned hjoins hcolumn =>
    refine (avoids_walk_of_leads hjoins _).bind fun ⟨t, q⟩ hwalk => ?_
    obtain ⟨rfl, -⟩ := (leads_of_walk hwalk).unique (hjoins.moved f.path)
    exact (hopens _ _ _ _ hcolumn).bind fun _ _ => avoids_ok _
  | @columnArgument name =>
    simp only [Segment.action]
    split
    · exact avoids_ok _
    · rename_i hnone
      rcases Bool.or_eq_true _ _ ▸ hdeclared with hcolumn | htable
      · have hvalue := h.arguments name hcolumn
        rw [hnone] at hvalue
        cases hvalue
      · rw [← h.table] at htable
        exact (avoids_tableValue hdefaults hfull hhome htable _).map _
  | @tableArgument name =>
    have htable : (f.table.1.parameter? name).isSome = true := h.table ▸ hdeclared
    exact (avoids_tableValue hdefaults hfull hhome htable _).map _
  | columnBase =>
    obtain ⟨base, hbase⟩ := Option.isSome_iff_exists.1 (h.base hmem)
    simp only [Segment.action, hbase]
    exact avoids_ok _

theorem avoids_applyGrain (hcheck : m.check = .ok ()) {f : Frame m} {r : Ref m}
    (h : Frame.Provided scope f r) (g : Grain) : Avoids .unresolvable (f.applyGrain mode g) := by
  have htruncated : ∀ c, Avoids .unresolvable (Frame.applyGrain.truncated mode f g c) := by
    intro c
    unfold Frame.applyGrain.truncated
    split
    · exact avoids_ok _
    · exact avoids_error (by simp [CompileError.kind])
  unfold Frame.applyGrain
  split
  · exact avoids_ok _
  · rename_i c hcolumn
    split
    · rename_i d hd
      split
      · rename_i text htext
        obtain rfl : c = r.column := Option.some.inj (hcolumn.symm.trans h.column)
        -- whether a column stands in its table does not depend on the grain it is taken at
        have hinTable : Ref.InTable { r with grain := some g } := h.inTable
        have hformula : (r.column.1.grain? g).bind (·.formula) = some text := by rw [hd]; exact htext
        obtain ⟨u, hread⟩ := (sound_of_check hcheck hinTable).grain g text rfl hformula
        exact (avoids_readTemplate hread _ _).bind fun _ _ => avoids_ok _
      · exact htruncated _
    · exact htruncated _

/-- Every frame of the stack finds what it reads. -/
def State.Provided (scope : Scope m) (s : State m) : Prop :=
  ∀ f ∈ s.top :: s.below, ∃ r, Frame.Provided scope f r

theorem avoids_checkEnter (s : State m) (f : Frame m) :
    Avoids .unresolvable (s.checkEnter f) := by
  unfold State.checkEnter
  split
  · exact avoids_error (by simp [CompileError.kind])
  · split
    · exact avoids_error (by simp [CompileError.kind])
    · exact avoids_ok _

theorem avoids_step (hcheck : m.check = .ok ()) (hdeclares : m.DeclaresArguments)
    (hdefaults : m.GivesDefaults) (hfull : Scope.Full scope) {s : State m}
    (h : State.Provided scope s) : Avoids .unresolvable (step mode scope s) := by
  obtain ⟨r, htop⟩ := h s.top List.mem_cons_self
  unfold step
  split
  · rename_i segment rest hrest
    have hmem : segment ∈ s.top.rest := hrest ▸ List.mem_cons_self
    refine (avoids_action hcheck hdeclares hdefaults hfull htop hmem).bind fun ⟨_, action⟩ _ => ?_
    cases action with
    | text sql => exact avoids_ok _
    | enter opened => exact (avoids_checkEnter _ _).bind fun _ _ => avoids_ok _
  · split
    · exact avoids_ok _
    · rename_i g hg
      refine (avoids_applyGrain hcheck htop g).bind fun action _ => ?_
      cases action with
      | text sql => exact avoids_ok _
      | enter opened => exact avoids_ok _

/-- A frame that has read a segment. -/
theorem Frame.Provided.advance {f : Frame m} {r : Ref m} (h : Frame.Provided scope f r)
    {segment : Segment} {rest : Template} (hrest : f.rest = segment :: rest) (out : String) :
    Frame.Provided scope { f with rest, out } r :=
  ⟨h.toStands.advance hrest out, h.leads, h.inTable, h.arguments,
    fun hmem => h.base (hrest ▸ List.mem_cons_of_mem _ hmem)⟩

/-- A frame that goes over to the formula of its grain has come to what its column is. -/
theorem Frame.Provided.regrain {f : Frame m} {r : Ref m} (h : Frame.Provided scope f r) {g : Grain}
    (hgrain : f.grain = some g) {opened : Frame.Opened m}
    (hopened : f.applyGrain mode g = .ok (.enter opened)) :
    Frame.Provided scope opened.1 r := by
  have hstands := h.toStands.regrain hgrain hopened
  obtain ⟨_, _, _, -, -, -, hframe⟩ := applyGrain_enter_cases hopened
  rw [hframe] at hstands ⊢
  exact ⟨hstands, h.leads, h.inTable, h.arguments, fun _ => rfl⟩

/-- A segment that opens a column provides its frame. -/
theorem provided_of_action (hcheck : m.check = .ok ()) (hdefaults : m.GivesDefaults)
    {f : Frame m} {r : Ref m} (h : Frame.Provided scope f r) {segment : Segment} {path : JoinPath}
    {opened : Frame.Opened m} (haction : segment.action mode scope f = .ok (path, .enter opened)) :
    ∃ r, Frame.Provided scope opened.1 r := by
  obtain ⟨joins, _, _, _, t, hleads, hopen, -⟩ := action_enter_cases haction
  rw [h.table, h.path] at hleads
  have hreached := h.leads.append hleads
  rw [← hleads.path_eq] at hreached
  exact provided_of_openColumn hcheck hdefaults hreached hopen

/-- Every step keeps the stack provided. -/
theorem provided_of_moves (hcheck : m.check = .ok ()) (hdefaults : m.GivesDefaults)
    {s s' : State m} (h : State.Provided scope s) (hmoves : Moves mode scope s (.next s')) :
    State.Provided scope s' := by
  obtain ⟨r, htop⟩ := h s.top List.mem_cons_self
  have hbelow : ∀ f ∈ s.below, ∃ r, Frame.Provided scope f r :=
    fun f hf => h f (List.mem_cons_of_mem _ hf)
  have hpopped : ∀ {sql}, s.finish sql = .next s' → State.Provided scope s' := by
    intro sql hfinish
    unfold State.finish at hfinish
    split at hfinish
    · cases hfinish
    · rename_i parent rest hrest
      cases hfinish
      rw [hrest] at hbelow
      obtain ⟨r, hparent⟩ := hbelow parent List.mem_cons_self
      refine List.forall_mem_cons.2 ⟨⟨r, { hparent with }⟩, fun f hf => ?_⟩
      exact hbelow f (List.mem_cons_of_mem _ hf)
  generalize ho : Outcome.next s' = o at hmoves
  cases hmoves with
  | text hrest haction =>
    cases ho
    exact List.forall_mem_cons.2 ⟨⟨r, htop.advance hrest _⟩, hbelow⟩
  | enter hrest haction _ =>
    cases ho
    have hopened := provided_of_action hcheck hdefaults htop haction
    exact List.forall_mem_cons.2 ⟨hopened, List.forall_mem_cons.2 ⟨⟨r, htop.advance hrest _⟩, hbelow⟩⟩
  | finish hrest hgrain => exact hpopped ho.symm
  | truncate hrest hgrain hsql => exact hpopped ho.symm
  | regrain hrest hgrain hopened =>
    cases ho
    exact List.forall_mem_cons.2 ⟨⟨r, htop.regrain hgrain hopened⟩, hbelow⟩

/-! ## Names in place of values -/

section

variable {d : Dialect}

theorem tableValue_strict {f : Frame m} {context name : String}
    (h : Avoids .unresolvable (tableValue ⟨d, false⟩ scope f context name)) :
    tableValue ⟨d, false⟩ scope f context name = tableValue ⟨d, true⟩ scope f context name := by
  unfold tableValue at h ⊢
  dsimp only at h ⊢
  split at h
  · rfl
  · exact (h _ rfl rfl).elim

theorem action_strict {f : Frame m} {segment : Segment}
    (h : Avoids .unresolvable (segment.action ⟨d, false⟩ scope f)) :
    segment.action ⟨d, false⟩ scope f = segment.action ⟨d, true⟩ scope f := by
  cases segment with
  | reference joins target => cases target <;> rfl
  | columnArgument name =>
    simp only [Segment.action] at h ⊢
    split at h
    · rfl
    · rw [tableValue_strict h.of_map]
  | tableArgument name =>
    simp only [Segment.action] at h ⊢
    rw [tableValue_strict h.of_map]
  | literal _ | pinned _ _ _ | columnBase => rfl

theorem step_strict {s : State m} (h : Avoids .unresolvable (step ⟨d, false⟩ scope s)) :
    step ⟨d, false⟩ scope s = step ⟨d, true⟩ scope s := by
  unfold step at h ⊢
  split at h
  · rw [action_strict (Avoids.of_bind h)]
  · rfl

/-- An expansion that does not miss the value of an argument is the one that puts names in place of
such values. -/
theorem run_strict {s : State m} (h : Avoids .unresolvable (run ⟨d, false⟩ scope s)) :
    run ⟨d, false⟩ scope s = run ⟨d, true⟩ scope s := by
  induction hk : s.work using Nat.strongRecOn generalizing s with
  | ind n ih =>
    have hstep : step ⟨d, false⟩ scope s = step ⟨d, true⟩ scope s :=
      step_strict fun e he => h e (run_of_error he)
    cases hs : step ⟨d, false⟩ scope s with
    | error e => rw [run_of_error hs, run_of_error (hstep.symm.trans hs)]
    | ok o =>
      cases o with
      | done f => rw [run_of_done hs, run_of_done (hstep.symm.trans hs)]
      | next s' =>
        rw [run_of_next hs] at h ⊢
        rw [run_of_next (hstep.symm.trans hs)]
        have hless := step_work_lt hs
        exact ih _ (hk ▸ hless) h rfl

theorem expandColumn_strict {path : JoinPath} {column : String} {arguments : Arguments}
    {grain : Option Grain}
    (h : Avoids .unresolvable (expandColumn ⟨d, false⟩ scope path column arguments grain)) :
    expandColumn ⟨d, false⟩ scope path column arguments grain =
      expandColumn ⟨d, true⟩ scope path column arguments grain := by
  unfold expandColumn at h ⊢
  dsimp only at h ⊢
  cases hwalk : walk (stepsText path column) scope.root [] path with
  | error e => rfl
  | ok reached =>
    obtain ⟨t, q⟩ := reached
    simp only [hwalk, bind, Except.bind] at h ⊢
    cases hopen : openColumn t q column .empty arguments grain (stepsText path column) with
    | error e => rfl
    | ok opened =>
      simp only [hopen] at h ⊢
      exact run_strict h

end

/-! ## Models without dangling references -/

/-- In an accepted model that declares its arguments and gives them defaults, an expansion from the
end of an existing path finds all that it refers to. -/
theorem avoids_expandColumn (hcheck : m.check = .ok ()) (hdeclares : m.DeclaresArguments)
    (hdefaults : m.GivesDefaults) (hfull : Scope.Full scope) {path : JoinPath} {t : m.Member}
    (ht : tableAt scope.root path = .ok t) {column : String}
    (hcolumn : (Model.Member.column? t column).isSome = true) (arguments : Arguments)
    (grain : Option Grain) :
    Avoids .unresolvable (expandColumn mode scope path column arguments grain) := by
  have hleads := tableAt_eq_ok_iff.1 ht
  obtain ⟨c, hc⟩ := Option.isSome_iff_exists.1 hcolumn
  have hinTable : Ref.InTable ⟨t, path, c, none⟩ := ⟨column, hc⟩
  obtain ⟨u, hread, -⟩ := (sound_of_check hcheck hinTable).formula
  refine (avoids_walk_of_leads (hleads.moved []) _).bind fun ⟨t', q⟩ hwalk => ?_
  obtain ⟨rfl, rfl⟩ := (leads_of_walk hwalk).unique hleads
  refine (avoids_openColumn hc hread _ _ _ _ _).bind fun opened hopen => ?_
  refine avoids_run (I := State.Provided scope)
    (fun _ hs => avoids_step hcheck hdeclares hdefaults hfull hs)
    (fun _ _ hs => provided_of_moves hcheck hdefaults hs) ?_
  exact List.forall_mem_singleton.2 (provided_of_openColumn hcheck hdefaults hleads hopen)

/-- What stands for a template at its own table, with defaults alone and without names in place of
values, reads declared arguments only. -/
theorem isDeclared_of_denotes {d : Dialect} {t : m.Member} {c : m.AnyColumn} {arguments : Arguments}
    {base : Option String} {u : Template} {out : String} {ps : List JoinPath}
    (h : Denotes ⟨d, false⟩ (Scope.of t .empty) ⟨t, [], some c, arguments, base⟩ u out ps)
    (hvalues : ∀ name, (arguments.get? name).isSome = true →
      (c.1.parameter? name).isSome = true)
    {segment : Segment} (hmem : segment ∈ u) : segment.isDeclared t.1 c.1 = true := by
  have htable : ∀ name value,
      Site.tableArgument? ⟨d, false⟩ (Scope.of t .empty) ⟨t, [], some c, arguments, base⟩ name =
        some value → (t.1.parameter? name).isSome = true := by
    intro name value hvalue
    unfold Site.tableArgument? at hvalue
    dsimp only at hvalue
    rw [if_pos rfl] at hvalue
    have hdefault : (t.1.defaults.get? name).isSome = true := by
      cases hget : t.1.defaults.get? name with
      | some v => rfl
      | none =>
        rw [show (Scope.of t .empty).arguments.get? name = none from hget] at hvalue
        cases hvalue
    obtain ⟨p, hp, hname, -⟩ := (Table.isSome_defaults_get? _ _).1 hdefault
    exact (Table.isSome_parameter?_iff _ _).2 ⟨p, hp, hname⟩
  obtain ⟨_, _, _, hfrom, -⟩ := h.from_segment hmem
  cases hfrom with
  | literal _ | physical _ _ | logical _ _ _ | pinned _ _ _ | columnBase _ _ => rfl
  | tableArgument hvalue _ => exact htable _ _ hvalue
  | @columnArgument _ name _ _ _ _ hvalue _ =>
    refine Bool.or_eq_true_iff.2 ?_
    unfold Site.argument? at hvalue
    split at hvalue
    · rename_i v hv
      exact .inl (hvalues name (by rw [hv]; rfl))
    · exact .inr (htable _ _ hvalue)

/-- A model whose columns can be expanded at their own tables, with defaults alone, declares the
arguments they read. -/
theorem declaresArguments_of_avoids (hcheck : m.check = .ok ())
    (h : ∀ (t : m.Member) (column : String) (grain : Option Grain),
      (Model.Member.column? t column).isSome = true → Avoids .unresolvable
        (expandColumn ⟨.duckdb, false⟩ (Scope.of t .empty) [] column .empty grain)) :
    m.DeclaresArguments := by
  intro t ht c hc text htext u hu segment hmem
  have hread := ok_of_toOption hu
  obtain ⟨c, rfl, hcolumn⟩ := Model.column?_of_mem hcheck (t := ⟨t, ht⟩) hc
  -- some grain brings the formula in, and at this grain the column was tried out
  obtain ⟨grain, f, huses, hf⟩ : ∃ grain f, Ref.Uses ⟨⟨t, ht⟩, [], c, grain⟩ u ∧
      expandColumn Model.trial (Scope.of ⟨t, ht⟩ .empty) [] c.1.name .empty grain = .ok f := by
    rcases List.mem_cons.1 htext with rfl | htext
    · obtain ⟨grain, f, hf, -⟩ :=
        tried_of_check hcheck (r := ⟨⟨t, ht⟩, [], c, none⟩) ⟨_, hcolumn⟩
      exact ⟨grain, f, .formula hread, hf⟩
    · obtain ⟨g, -, hformula⟩ := List.mem_filterMap.1 htext
      obtain ⟨grain, f, hf, rfl | ⟨-, hnone⟩⟩ :=
        tried_of_check hcheck (r := ⟨⟨t, ht⟩, [], c, some g⟩) ⟨_, hcolumn⟩
      · exact ⟨some g, f, .grain rfl hformula hread, hf⟩
      · cases (hnone g rfl).symm.trans hformula
  have hstrict := expandColumn_strict (h ⟨t, ht⟩ c.1.name grain (by rw [hcolumn]; rfl))
  obtain ⟨_, ⟨v, _, _, hleads, hexpands, -⟩, -⟩ :=
    standsFor_of_expandColumn (hstrict.trans hf)
  cases hleads
  rw [← grainAt_empty c.1 grain] at huses
  obtain ⟨arguments, _, _, _, hvalues, hdenotes, -⟩ := hexpands.denotes_used hcolumn huses
  refine isDeclared_of_denotes hdenotes (fun name hname => ?_) hmem
  rw [hvalues] at hname
  unfold lateBound at hname
  split at hname
  · rename_i hdeclared
    exact hdeclared
  · cases hname

/-- In an accepted model whose declared arguments all have defaults, no existing column fails for an
unresolvable reference, from whatever table, along whatever path, with whatever arguments, at
whatever grain and in whatever dialect, exactly if every argument that a formula reads is declared. -/
theorem resolveColumn_resolvable_iff {tables : List Table} {depth : Nat}
    (hbuild : Model.build tables depth = .ok m) (hdefaults : m.GivesDefaults) :
    (∀ (d : Dialect) (root t : m.Member) (given : Arguments) (path : JoinPath) (column : String)
      (arguments : Arguments) (grain : Option Grain) (memo : Memo),
      tableAt root path = .ok t → (Model.Member.column? t column).isSome = true →
      Avoids .unresolvable
        ((resolveColumn ⟨d, false⟩ (Scope.of root given) path column arguments grain).run memo)) ↔
    m.DeclaresArguments := by
  have hcheck := Model.check_of_build hbuild
  constructor
  · intro h
    refine declaresArguments_of_avoids hcheck fun t column grain hcolumn e he => ?_
    refine h .duckdb t t .empty [] column .empty grain [] rfl hcolumn e ?_
    unfold resolveColumn
    simp [he]
  · intro hdeclares d root t given path column arguments grain memo ht hcolumn e he
    exact avoids_expandColumn hcheck hdeclares hdefaults (full_of_givesDefaults hdefaults root given)
      ht hcolumn arguments grain e (resolveColumn_error he)

end

/-! ## A model that declares what it reads -/

/-- Riders of a season, who sign for a squad. -/
def riders : Table where
  name := "riders"
  source := .physical none "riders"
  parameters := [{ name := "season", valueType := .integer, default := some "2024" }]
  columns := [
    { name := "squad_name"
      formula := "\x7b\x7bsquad.title\x7d\x7d || \x7b\x7b$$table.args.season\x7d\x7d"
      kind := .dimension },
    { name := "signed", formula := "\x7b\x7b$signed_at\x7d\x7d"
      parameters := [{ name := "zone", default := some "UTC" }]
      kind := .timeDimension [
        { grain := .day
          formula :=
            some "local(\x7b\x7b$$column.expr\x7d\x7d, \x7b\x7b$$column.args.zone\x7d\x7d)" }] }]
  joins := [
    { name := "squad", table := "squads"
      condition := "\x7b\x7b$squad_id\x7d\x7d = \x7b\x7bsquad.$id\x7d\x7d" }]

/-- Squads with their titles. -/
def squads : Table where
  name := "squads"
  source := .physical none "squads"
  columns := [{ name := "title", formula := "\x7b\x7b$title\x7d\x7d", kind := .dimension }]

/-- Riders and squads. -/
def tour : Model where
  tables := [riders, squads]

theorem resolveColumn_resolvable_tour :
    Model.build [riders, squads] = .ok tour ∧ tour.GivesDefaults ∧
    ∀ (d : Dialect) (root t : tour.Member) (given : Arguments) (path : JoinPath) (column : String)
      (arguments : Arguments) (grain : Option Grain) (memo : Memo),
      tableAt root path = .ok t → (Model.Member.column? t column).isSome = true →
      Avoids .unresolvable
        ((resolveColumn ⟨d, false⟩ (Scope.of root given) path column arguments grain).run memo) := by
  have hbuild : Model.build [riders, squads] = .ok tour := by decide +kernel
  have hdefaults : tour.GivesDefaults := by decide +kernel
  have hdeclares : tour.DeclaresArguments := by decide +kernel
  exact ⟨hbuild, hdefaults, (resolveColumn_resolvable_iff hbuild hdefaults).2 hdeclares⟩

/-! ## A formula with the wrong argument -/

/-- Stages of a year; the formula asks for the season. -/
def stages : Table where
  name := "stages"
  source := .physical none "stages"
  parameters := [{ name := "year", valueType := .integer, default := some "2024" }]
  columns := [
    { name := "edition"
      formula := "\x7b\x7b$race\x7d\x7d || '\x7b\x7b$$table.args.season\x7d\x7d'"
      kind := .dimension }]

/-- The model of the stages. -/
def prologue : Model where
  tables := [stages]

/-- The stages in their model. -/
def prologueStages : prologue.Member := ⟨stages, List.mem_cons_self⟩

/-- The model is accepted, but the column fails at the first query. -/
theorem resolveColumn_unresolvable_edition :
    Model.build [stages] = .ok prologue ∧ prologue.GivesDefaults ∧
    (Model.Member.column? prologueStages "edition").isSome = true ∧
    ∃ e, (resolveColumn ⟨.sqlite, false⟩ (Scope.of prologueStages .empty) [] "edition" .empty
      none).run [] = .error e ∧ e.kind = .unresolvable := by
  refine ⟨by decide +kernel, by decide +kernel, by decide +kernel,
    .unresolvable "stages" "$$table.args.season" (.noArgumentValue "stages.edition"), ?_, rfl⟩
  decide +kernel

end Expansion

end Rollup
