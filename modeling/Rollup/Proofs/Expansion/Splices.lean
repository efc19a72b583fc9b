/-
What is put in place of arguments. A value comes from the request, from a reference that fixes it, from
the column that refers to this one, or from a default. Those of columns are checked when a frame is
opened and those of the root when the query is built, so every value that an expansion puts into its
text is accepted by a declaration of the argument, when the defaults of table arguments are. These
nobody checks: a table may hand an expression to its formulas in place of a number.
-/
import Rollup.Proofs.Model.Repeats
import Rollup.Proofs.Query.Accepted

namespace Rollup

/-- The argument that a segment asks for. -/
def Segment.argument? : Segment → Option String
  | .columnArgument name | .tableArgument name => some name
  | _ => none

/-- The default of every table argument is accepted by a declaration of the argument. -/
def Model.ChecksDefaults (m : Model) : Prop :=
  ∀ t ∈ m.tables, ∀ p ∈ t.parameters, ∀ v, p.default = some v →
    ∃ p' ∈ t.parameters, p'.name = p.name ∧ p'.check v = .ok ()

namespace Expansion

section

variable {m : Model} {d : Dialect} {mode : Mode} {scope : Scope m}

/-! ## Values -/

/-- The value that a frame finds for an argument of its table. -/
def Frame.tableGiven (scope : Scope m) (f : Frame m) (name : String) : Option String :=
  match f.path with
  | [] => scope.arguments.get? name
  | _ => (f.table.1.parameter? name).bind (·.default)

/-- A frame finds a value for the argument that a segment asks for, and the declaration that says how
the value is written: among the values of the column first, and then among those of the table. -/
inductive Frame.Finds (scope : Scope m) (f : Frame m) : Segment → String → Option Parameter → Prop
  | ofColumn {name v} (hvalue : f.arguments.get? name = some v) :
    Finds scope f (.columnArgument name) v (f.column.bind (·.1.parameter? name))
  | behindColumn {name v} (hnone : f.arguments.get? name = none)
    (hvalue : Frame.tableGiven scope f name = some v) :
    Finds scope f (.columnArgument name) v (f.table.1.parameter? name)
  | ofTable {name v} (hvalue : Frame.tableGiven scope f name = some v) :
    Finds scope f (.tableArgument name) v (f.table.1.parameter? name)

theorem tableGiven_of_tableValue {f : Frame m} {context name text : String}
    (h : tableValue ⟨d, false⟩ scope f context name = .ok text) :
    ∃ v, Frame.tableGiven scope f name = some v ∧
      text = argumentLiteral d (f.table.1.parameter? name) v := by
  unfold tableValue at h
  dsimp only at h
  split at h
  · rename_i v hvalue
    cases h
    exact ⟨v, hvalue, rfl⟩
  · cases h

/-- The text that stands for an argument is the literal of a value that the frame finds. -/
theorem finds_of_action {f : Frame m} {segment : Segment} {name : String} {path : JoinPath}
    {action : Action m} (hname : segment.argument? = some name)
    (h : segment.action ⟨d, false⟩ scope f = .ok (path, action)) :
    ∃ v declared, Frame.Finds scope f segment v declared ∧
      action = .text (argumentLiteral d declared v) := by
  cases segment with
  | columnArgument _ =>
    cases hname
    simp only [Segment.action] at h
    split at h
    · rename_i v hvalue
      cases h
      exact ⟨v, _, .ofColumn hvalue, rfl⟩
    · rename_i hnone
      obtain ⟨text, htext, heq⟩ := map_ok h
      cases heq
      obtain ⟨v, hvalue, rfl⟩ := tableGiven_of_tableValue htext
      exact ⟨v, _, .behindColumn hnone hvalue, rfl⟩
  | tableArgument _ =>
    cases hname
    obtain ⟨text, htext, heq⟩ := map_ok h
    cases heq
    obtain ⟨v, hvalue, rfl⟩ := tableGiven_of_tableValue htext
    exact ⟨v, _, .ofTable hvalue, rfl⟩
  | literal _ | reference _ _ | pinned _ _ _ | columnBase => cases hname

/-! ## Frames with checked values -/

/-- The declarations that hold in a frame: those of its column and those of its table. -/
def Frame.parameters (f : Frame m) : List Parameter :=
  f.column.elim [] (·.1.parameters) ++ f.table.1.parameters

/-- A frame reads in a table that its path leads to, with checked values for its column. -/
structure Frame.Bound (scope : Scope m) (f : Frame m) : Prop where
  leads : Leads scope.root [] f.path f.table f.path
  checked : Checked (f.column.elim [] (·.1.parameters)) f.arguments

/-- The values of a scope are accepted by declarations of its table. -/
def Scope.Checks (scope : Scope m) : Prop :=
  Checked scope.root.1.parameters scope.arguments

/-- What a frame finds for an argument of its table is accepted. -/
theorem accepted_of_tableGiven (hdefaults : m.ChecksDefaults) (hscope : Scope.Checks scope)
    {f : Frame m} (h : Frame.Bound scope f) {name v : String}
    (hvalue : Frame.tableGiven scope f name = some v) :
    ∃ p ∈ f.table.1.parameters, p.name = name ∧ p.check v = .ok () := by
  unfold Frame.tableGiven at hvalue
  split at hvalue
  · rename_i hpath
    have hhome : f.table = scope.root := by
      have hleads := h.leads
      rw [hpath] at hleads
      exact (hleads.unique .here).1
    rw [hhome]
    exact hscope _ (Arguments.mem_of_get? hvalue)
  · obtain ⟨p, hp, hdefault⟩ := Option.bind_eq_some_iff.1 hvalue
    obtain ⟨p', hp', hname, hcheck⟩ :=
      hdefaults f.table.1 f.table.2 p (List.mem_of_find?_eq_some hp) v hdefault
    have hfound : p.name = name := by simpa using List.find?_some hp
    exact ⟨p', hp', hname.trans hfound, hcheck⟩

/-- What a frame finds is accepted by a declaration that holds in it. -/
theorem accepted_of_finds (hdefaults : m.ChecksDefaults) (hscope : Scope.Checks scope)
    {f : Frame m} (h : Frame.Bound scope f) {segment : Segment} {name v : String}
    {declared : Option Parameter} (hname : segment.argument? = some name)
    (hfinds : Frame.Finds scope f segment v declared) :
    ∃ p ∈ Frame.parameters f, p.name = name ∧ p.check v = .ok () := by
  cases hfinds with
  | ofColumn hvalue =>
    cases hname
    obtain ⟨p, hp, hchecked⟩ := h.checked _ (Arguments.mem_of_get? hvalue)
    exact ⟨p, List.mem_append_left _ hp, hchecked⟩
  | behindColumn _ hvalue | ofTable hvalue =>
    cases hname
    obtain ⟨p, hp, hchecked⟩ := accepted_of_tableGiven hdefaults hscope h hvalue
    exact ⟨p, List.mem_append_right _ hp, hchecked⟩

/-- The values of a query, with the defaults of its table behind them, are accepted. -/
theorem checks_of_build (hdefaults : m.ChecksDefaults) {r : Request} {q : Query}
    (hq : Query.build m r = .ok q) {root : m.Member} (hroot : m.require q.table = .ok root) :
    Scope.Checks (Scope.of root q.arguments) := by
  obtain ⟨root', hroot', hgiven⟩ := Query.checked_of_build hq
  cases hroot.symm.trans hroot'
  intro e he
  rcases Arguments.mem_foldl_insert he with he | he
  · obtain ⟨p, hp, hname, hdefault⟩ := Table.default_of_mem_defaults he
    obtain ⟨p', hp', hname', hcheck⟩ := hdefaults root.1 root.2 p hp e.2 hdefault
    exact ⟨p', hp', hname'.trans hname, hcheck⟩
  · exact hgiven e he

/-! ## Steps -/

theorem bound_of_openColumn {t : m.Member} {path : JoinPath} {name reference : String}
    {fixed passed : Arguments} {asked : Option Grain} {f : Frame.Opened m}
    (hleads : Leads scope.root [] path t path)
    (h : openColumn t path name fixed passed asked reference = .ok f) :
    Frame.Bound scope f.1 := by
  obtain ⟨c, arguments, grain, u, -, harguments, -, -, hf⟩ := openColumn_eq h
  rw [hf]
  exact ⟨hleads, checked_of_bindArguments harguments⟩

theorem bound_of_action {f : Frame m} (h : Frame.Bound scope f) {segment : Segment}
    {path : JoinPath} {opened : Frame.Opened m}
    (haction : segment.action mode scope f = .ok (path, .enter opened)) :
    Frame.Bound scope opened.1 := by
  obtain ⟨joins, _, _, _, t, hleads, hopen, -⟩ := action_enter_cases haction
  have hreached := h.leads.append hleads
  rw [← hleads.path_eq] at hreached
  exact bound_of_openColumn hreached hopen

theorem bound_of_applyGrain {f : Frame m} (h : Frame.Bound scope f) {g : Grain}
    {opened : Frame.Opened m} (hopened : f.applyGrain mode g = .ok (.enter opened)) :
    Frame.Bound scope opened.1 := by
  obtain ⟨_, _, _, -, -, -, hframe⟩ := applyGrain_enter_cases hopened
  rw [hframe]
  exact ⟨h.leads, h.checked⟩

/-- Every frame of the stack has checked values. -/
def State.Bound (scope : Scope m) (s : State m) : Prop :=
  ∀ f ∈ s.top :: s.below, Frame.Bound scope f

theorem bound_of_moves {s s' : State m} (h : State.Bound scope s)
    (hmoves : Moves mode scope s (.next s')) : State.Bound scope s' := by
  obtain ⟨htop, hbelow⟩ := List.forall_mem_cons.1 h
  -- a frame keeps its values when it reads on
  have hreads : ∀ {f : Frame m} (rest : Template) (out : String), Frame.Bound scope f →
      Frame.Bound scope { f with rest, out } :=
    fun _ _ hf => ⟨hf.leads, hf.checked⟩
  have hpopped : ∀ {sql}, s.finish sql = .next s' → State.Bound scope s' := by
    intro sql hfinish
    unfold State.finish at hfinish
    split at hfinish
    · cases hfinish
    · rename_i parent rest hrest
      cases hfinish
      rw [hrest] at hbelow
      obtain ⟨hparent, hbelow⟩ := List.forall_mem_cons.1 hbelow
      exact List.forall_mem_cons.2 ⟨hreads _ _ hparent, hbelow⟩
  generalize ho : Outcome.next s' = o at hmoves
  cases hmoves with
  | text hrest haction =>
    cases ho
    exact List.forall_mem_cons.2 ⟨hreads _ _ htop, hbelow⟩
  | enter hrest haction _ =>
    cases ho
    exact List.forall_mem_cons.2 ⟨bound_of_action htop haction,
      List.forall_mem_cons.2 ⟨hreads _ _ htop, hbelow⟩⟩
  | finish hrest hgrain => exact hpopped ho.symm
  | truncate hrest hgrain hsql => exact hpopped ho.symm
  | regrain hrest hgrain hopened =>
    cases ho
    exact List.forall_mem_cons.2 ⟨bound_of_applyGrain htop hopened, hbelow⟩

theorem bound_of_reaches {s s' : State m} (hreaches : Reaches mode scope s s')
    (h : State.Bound scope s) : State.Bound scope s' := by
  induction hreaches with
  | refl => exact h
  | tail _ hstep ih => exact bound_of_moves ih (moves_of_step hstep)

/-! ## Expansions -/

/-- The expansion of a template, such as the condition of a join, comes to a state. -/
def TemplateComesTo (mode : Mode) (scope : Scope m) (path : JoinPath) (text label : String)
    (s : State m) : Prop :=
  ∃ t reached u, walk label scope.root [] path = .ok (t, reached) ∧
    Template.parse text = .ok u ∧
    Reaches mode scope ⟨{
        table := t
        path := reached
        column := none
        arguments := .empty
        rest := u
        key := none
        label := aliasFor mode.dialect scope.root.1 reached ++ "." ++ label },
      [], [], reached.record []⟩ s

/-- The expansion of some column or template comes to a state. -/
def SomeComesTo (mode : Mode) (scope : Scope m) (s : State m) : Prop :=
  (∃ path column arguments grain, ComesTo mode scope path column arguments grain s) ∨
    ∃ path text label, TemplateComesTo mode scope path text label s

theorem bound_of_someComesTo {s : State m} (h : SomeComesTo mode scope s) :
    State.Bound scope s := by
  have hhome : ∀ {t : m.Member} {path reached : JoinPath}, Leads scope.root [] path t reached →
      Leads scope.root [] reached t reached := by
    intro t path reached hleads
    have hway := hleads.path_eq
    rw [List.nil_append] at hway
    rwa [hway] at hleads ⊢
  rcases h with ⟨path, column, arguments, grain, t, reached, f, hwalk, hopen, hreaches⟩ |
    ⟨path, text, label, t, reached, u, hwalk, hread, hreaches⟩
  · refine bound_of_reaches hreaches (List.forall_mem_singleton.2 ?_)
    exact bound_of_openColumn (hhome (leads_of_walk hwalk)) hopen
  · refine bound_of_reaches hreaches (List.forall_mem_singleton.2 ⟨hhome (leads_of_walk hwalk), ?_⟩)
    exact fun _ he => by cases he

/-- Wherever an expansion puts something in place of an argument, it adds the literal of a value that
a declaration of the argument accepts. -/
def SplicesAccepted (d : Dialect) (scope : Scope m) : Prop :=
  ∀ s, SomeComesTo ⟨d, false⟩ scope s → ∀ segment rest name, s.top.rest = segment :: rest →
    segment.argument? = some name → ∀ s', step ⟨d, false⟩ scope s = .ok (.next s') →
    ∃ v declared, Frame.Finds scope s.top segment v declared ∧
      s'.top.out = s.top.out ++ argumentLiteral d declared v ∧
      ∃ p ∈ Frame.parameters s.top, p.name = name ∧ p.check v = .ok ()

/-- In every expansion for an accepted query only accepted values are put in place of arguments, when
the defaults of table arguments are accepted. -/
theorem splicesAccepted_of_build (hdefaults : m.ChecksDefaults) {r : Request} {q : Query}
    (hq : Query.build m r = .ok q) {root : m.Member} (hroot : m.require q.table = .ok root)
    (d : Dialect) : SplicesAccepted d (Scope.of root q.arguments) := by
  intro s hs segment rest name hrest hname s' hstep
  have hbound := bound_of_someComesTo hs s.top List.mem_cons_self
  generalize ho : Outcome.next s' = o at hstep
  cases moves_of_step hstep with
  | text hrest' haction =>
    cases ho
    cases hrest.symm.trans hrest'
    obtain ⟨v, declared, hfinds, htext⟩ := finds_of_action hname haction
    cases htext
    exact ⟨v, declared, hfinds, rfl, accepted_of_finds hdefaults
      (checks_of_build hdefaults hq hroot) hbound hname hfinds⟩
  | enter hrest' haction _ =>
    -- what stands for an argument opens no frame
    cases hrest.symm.trans hrest'
    obtain ⟨v, declared, -, htext⟩ := finds_of_action hname haction
    cases htext
  | finish hrest' _ | truncate hrest' _ _ | regrain hrest' _ _ =>
    rw [hrest] at hrest'
    cases hrest'

end

/-- The state that a step leads to. -/
def Outcome.next? {m : Model} : Outcome m → Option (State m)
  | .next s => some s
  | .done _ => none

theorem Outcome.eq_of_next? {m : Model} {x : Except CompileError (Outcome m)} {s : State m}
    (h : x.toOption.bind next? = some s) : x = .ok (.next s) := by
  obtain ⟨o, ho, hs⟩ := Option.bind_eq_some_iff.1 h
  cases o with
  | next s' =>
    cases hs
    exact ok_of_toOption ho
  | done f => cases hs

/-! ## Seasons -/

/-- Laps with captions, and with headlines that hand their label on to the caption. -/
def laps : Table where
  name := "laps"
  source := .physical none "laps"
  parameters := [{ name := "season", valueType := .integer, default := some "2024" }]
  columns := [
    { name := "caption"
      formula := "'\x7b\x7b$$column.args.label\x7d\x7d \x7b\x7b$$column.args.season\x7d\x7d'"
      parameters := [{ name := "label", default := some "lap" }]
      kind := .dimension },
    { name := "headline", formula := "\x7b\x7bcaption\x7d\x7d || \x7b\x7b$driver\x7d\x7d"
      parameters := [{ name := "label", default := some "top" }]
      kind := .dimension }]

/-- The model of the laps. -/
def circuitDay : Model where
  tables := [laps]

/-- The laps in their model. -/
def circuitDayLaps : circuitDay.Member := ⟨laps, List.mem_cons_self⟩

/-- The headlines of the season before. -/
def lastHeadlines : Query where
  table := "laps"
  arguments := Arguments.ofList [("season", "2023")]
  projections := [⟨{ column := "headline" }, .dimension, "headline"⟩]
  whereFilter := none
  havingFilter := none
  sorting := []
  pagination := none
  bypassCache := false

/-- The label is a default that is handed on, and the season comes from the request. -/
theorem splicesAccepted_of_build_lastHeadlines :
    let request : Request := { table := "laps", arguments := Arguments.ofList [("season", "2023")]
                               select := [{ column := { column := "headline" } }] }
    let scope := Scope.of circuitDayLaps lastHeadlines.arguments
    Model.build circuitDay.tables = .ok circuitDay ∧ circuitDay.ChecksDefaults ∧
    Query.build circuitDay request = .ok lastHeadlines ∧
    circuitDay.require lastHeadlines.table = .ok circuitDayLaps ∧
    expandColumn ⟨.sqlite, false⟩ scope [] "headline" .empty none =
      .ok ⟨"'top 2023' || \"laps\".\"driver\"", []⟩ ∧
    SplicesAccepted .sqlite scope := by
  intro request scope
  have hdefaults : circuitDay.ChecksDefaults := by
    have hchecked : ∀ t ∈ circuitDay.tables, ∀ p ∈ t.parameters, ∀ v ∈ p.default.toList,
        ∃ p' ∈ t.parameters, p'.name = p.name ∧ p'.check v = .ok () := by
      decide +kernel
    exact fun t ht p hp v hv => hchecked t ht p hp v (Option.mem_toList.2 hv)
  have hbuild : Query.build circuitDay request = .ok lastHeadlines := by decide +kernel
  exact ⟨by decide +kernel, hdefaults, hbuild, rfl, by decide +kernel,
    splicesAccepted_of_build hdefaults hbuild rfl .sqlite⟩

/-- The default season is no number. -/
def heats : Table where
  name := "heats"
  source := .physical none "heats"
  parameters := [{ name := "season", valueType := .integer, default := some "2024 OR 1=1" }]
  columns := [
    { name := "old", formula := "\x7b\x7b$$table.args.season\x7d\x7d > \x7b\x7b$season\x7d\x7d"
      kind := .dimension }]

/-- The model of the heats. -/
def heatDay : Model where
  tables := [heats]

/-- The heats in their model. -/
def heatDayHeats : heatDay.Member := ⟨heats, List.mem_cons_self⟩

/-- Which heats are old, for the default season. -/
def oldHeats : Query :=
  { lastHeadlines with
    table := "heats", arguments := .empty
    projections := [⟨{ column := "old" }, .dimension, "old"⟩] }

/-- The season reaches the text as it is, although its declaration does not accept it. -/
theorem splices_unaccepted_oldHeats :
    let request : Request := { table := "heats", select := [{ column := { column := "old" } }] }
    let scope := Scope.of heatDayHeats oldHeats.arguments
    Model.build heatDay.tables = .ok heatDay ∧
    Query.build heatDay request = .ok oldHeats ∧
    heatDay.require oldHeats.table = .ok heatDayHeats ∧
    expandColumn ⟨.sqlite, false⟩ scope [] "old" .empty none =
      .ok ⟨"2024 OR 1=1 > \"heats\".\"season\"", []⟩ ∧
    ¬ SplicesAccepted .sqlite scope := by
  intro request scope
  refine ⟨by decide +kernel, by decide +kernel, rfl, by decide +kernel, fun h => ?_⟩
  -- the first step of the column puts the season into the text
  let start (f : Frame.Opened heatDay) : State heatDay :=
    ⟨f.1, [], f.1.key.toList, f.1.path.record []⟩
  have hfirst : ((openColumn heatDayHeats [] "old" .empty .empty none "old").toOption.any fun f =>
      f.1.rest.head? == some (.tableArgument "season") &&
      Frame.tableGiven scope f.1 "season" == some "2024 OR 1=1" &&
      (Frame.parameters f.1).all (fun p => p.check "2024 OR 1=1" != .ok ()) &&
      ((step ⟨.sqlite, false⟩ scope (start f)).toOption.bind Outcome.next?).isSome) = true := by
    decide +kernel
  obtain ⟨f, hopen, hf⟩ := (Option.any_eq_true _ _).1 hfirst
  simp only [Bool.and_eq_true, beq_iff_eq, List.all_eq_true, bne_iff_ne] at hf
  obtain ⟨⟨⟨hsegment, hgiven⟩, hunaccepted⟩, hstep⟩ := hf
  obtain ⟨rest, hrest⟩ := List.head?_eq_some_iff.1 hsegment
  have hcomes : ComesTo ⟨.sqlite, false⟩ scope [] "old" .empty none (start f) :=
    ⟨heatDayHeats, [], f, rfl, ok_of_toOption hopen, .refl⟩
  obtain ⟨s', hs'⟩ := Option.isSome_iff_exists.1 hstep
  obtain ⟨v, declared, hfinds, -, p, hp, -, hcheck⟩ :=
    h _ (.inl ⟨_, _, _, _, hcomes⟩) _ _ _ hrest rfl s' (Outcome.eq_of_next? hs')
  cases hfinds with
  | ofTable hvalue =>
    cases hgiven.symm.trans hvalue
    exact hunaccepted p hp hcheck

end Expansion

end Rollup
