/-
Circles that are reported are circles. A frame is refused when its key is in progress, and keys are
texts: the place, the column, and its arguments and grain. The frames of a stack lead on from one to
the next, so two of them have one place only where they stand at the end of one path, or where the
table itself has the name that the joins of a way from it make together; and two arguments have one
text only where a value looks like an argument or a grain. Apart from this a frame with a key in
progress does again what a frame on the stack does.
-/
import Rollup.Proofs.Model.Signatures

namespace Rollup

namespace Expansion

section

variable {m : Model}

/-! ## What frames do -/

/-- A frame was opened for a column at a grain. It holds the grain until the formula of the grain
takes its place, and is known by it to the end. -/
structure Frame.OpenedFor (f : Frame m) (c : m.AnyColumn) (g : Option Grain) : Prop where
  column : f.column = some c
  inTable : ∃ name, Model.Member.column? f.table name = some c
  checked : Checked c.1.parameters f.arguments
  takes : c.1.Takes g
  grain : f.grain = if f.base.isNone then g else none
  key : f.key = some ⟨placeText f.table.1 f.path, c.1.name, f.arguments.signature g⟩

/-- A frame does again what another one does: it expands the same column at the end of the same path
from the root, with the same values of arguments and at the same grain. -/
def Frame.Repeats (f f' : Frame m) : Prop :=
  f.path = f'.path ∧ f.arguments = f'.arguments ∧
    ∃ c g, Frame.OpenedFor f c g ∧ Frame.OpenedFor f' c g

theorem openedFor_of_openColumn {t : m.Member} {path : JoinPath} {name reference : String}
    {fixed passed : Arguments} {asked : Option Grain} {f : Frame.Opened m}
    (h : openColumn t path name fixed passed asked reference = .ok f) :
    f.1.table = t ∧ f.1.path = path ∧ ∃ c g, Frame.OpenedFor f.1 c g := by
  have htakes : ∀ g, f.1.grain = some g →
      ∃ c, f.1.column = some c ∧ (c.1.grain? g).isSome = true := by
    intro g hg
    unfold openColumn at h
    split at h
    rotate_left
    · cases h
    rename_i c _
    obtain ⟨arguments, -, h⟩ := bind_ok h
    obtain ⟨grain, -, h⟩ := bind_ok h
    cases grain with
    | none =>
      obtain ⟨u, -, h⟩ := bind_ok h
      cases h
      cases hg
    | some asked =>
      dsimp only at h
      split at h
      · cases h
      · rename_i hsome
        obtain ⟨u, -, h⟩ := bind_ok h
        cases h
        cases hg
        exact ⟨c, rfl, by simpa [Option.isSome_iff_ne_none] using hsome⟩
  obtain ⟨c, arguments, g, u, hcolumn, harguments, -, -, hf⟩ := openColumn_eq h
  rw [hf] at htakes ⊢
  refine ⟨rfl, rfl, c, g, rfl, ⟨name, hcolumn⟩, checked_of_bindArguments harguments, ?_, rfl, rfl⟩
  rintro asked rfl
  obtain ⟨c', hc', htakes⟩ := htakes asked rfl
  cases hc'
  exact htakes

/-- Frames of one key, the second further along the way of the first: the second does what the first
does, unless the root has the name of the way or their arguments are written alike. -/
theorem repeats_of_key {f f' : Frame m} {joins : List String} {c c' : m.AnyColumn}
    {g g' : Option Grain} (hf : Frame.OpenedFor f c g) (hf' : Frame.OpenedFor f' c' g')
    (hleads : Leads f.table f.path joins f'.table f'.path) (hkey : f.key = f'.key)
    (hplace : f.path = [] → f'.path ≠ [] → Text.join "_" f'.path ≠ f.table.1.name)
    (harguments : c.1.TellsArguments) : Frame.Repeats f f' := by
  rw [hf.key, hf'.key, Option.some.injEq, FrameKey.mk.injEq] at hkey
  obtain ⟨htext, hname, hsignature⟩ := hkey
  obtain ⟨htable, hpath⟩ := (placeText_eq hleads htext).resolve_right fun ⟨hroot, hne, hjoin⟩ =>
    hplace hroot hne hjoin
  obtain rfl : c = c' := by
    obtain ⟨n, hc⟩ := hf.inTable
    obtain ⟨n', hc'⟩ := hf'.inTable
    obtain rfl : c.1.name = n := (name_of_column? hc).2
    obtain rfl : c'.1.name = n' := (name_of_column? hc').2
    rw [htable, hname] at hc
    exact Option.some.inj (hc.symm.trans hc')
  obtain ⟨hvalues, rfl⟩ := harguments _ _ _ _ hf.checked hf'.checked hf.takes hf'.takes hsignature
  exact ⟨hpath, hvalues, c, g, hf, hf'⟩

/-! ## Stacks -/

/-- A stack of columns that are being expanded, each opened along a way from those below, and all of
them along a way from the root. -/
structure Traced (root : m.Member) (fs : List (Frame m)) : Prop where
  opened : ∀ f ∈ fs, ∃ c g, Frame.OpenedFor f c g
  leads : fs.Pairwise fun f g => ∃ joins, Leads g.table g.path joins f.table f.path
  rooted : ∀ f ∈ fs, Leads root [] f.path f.table f.path

namespace Traced

variable {root : m.Member} {f f' : Frame m} {fs : List (Frame m)}

theorem tail (h : Traced root (f :: fs)) : Traced root fs :=
  ⟨(List.forall_mem_cons.1 h.opened).2, (List.pairwise_cons.1 h.leads).2,
    (List.forall_mem_cons.1 h.rooted).2⟩

/-- The top frame may change as long as it stays in its place. -/
theorem replace (h : Traced root (f :: fs)) (htable : f'.table = f.table) (hpath : f'.path = f.path)
    (hopened : ∃ c g, Frame.OpenedFor f' c g) : Traced root (f' :: fs) := by
  obtain ⟨hleads, hrest⟩ := List.pairwise_cons.1 h.leads
  obtain ⟨hrooted, hbelow⟩ := List.forall_mem_cons.1 h.rooted
  rw [← htable, ← hpath] at hleads hrooted
  exact ⟨List.forall_mem_cons.2 ⟨hopened, h.tail.opened⟩, List.pairwise_cons.2 ⟨hleads, hrest⟩,
    List.forall_mem_cons.2 ⟨hrooted, hbelow⟩⟩

/-- A frame that is opened along joins from the top frame. -/
theorem push (h : Traced root (f :: fs)) {joins : List String}
    (hjoins : Leads f.table f.path joins f'.table f'.path)
    (hopened : ∃ c g, Frame.OpenedFor f' c g) : Traced root (f' :: f :: fs) := by
  refine ⟨List.forall_mem_cons.2 ⟨hopened, h.opened⟩, List.pairwise_cons.2 ⟨?_, h.leads⟩,
    List.forall_mem_cons.2 ⟨?_, h.rooted⟩⟩
  · intro g hg
    rcases List.mem_cons.1 hg with rfl | hg
    · exact ⟨joins, hjoins⟩
    · obtain ⟨first, hfirst⟩ := (List.pairwise_cons.1 h.leads).1 g hg
      exact ⟨first ++ joins, hfirst.append hjoins⟩
  · have hway := (h.rooted f List.mem_cons_self).append hjoins
    rwa [← hjoins.path_eq] at hway

end Traced

/-! ## Steps -/

section

variable {mode : Mode} {scope : Scope m}

theorem openedFor_of_action {f : Frame m} {segment : Segment} {q : JoinPath}
    {opened : Frame.Opened m} (h : segment.action mode scope f = .ok (q, .enter opened)) :
    (∃ joins, Leads f.table f.path joins opened.1.table opened.1.path) ∧
      ∃ c g, Frame.OpenedFor opened.1 c g := by
  obtain ⟨joins, name, fixed, _, t, hleads, hopen, -⟩ := action_enter_cases h
  obtain ⟨rfl, rfl, hopened⟩ := openedFor_of_openColumn hopen
  exact ⟨⟨joins, hleads⟩, hopened⟩

theorem openedFor_of_applyGrain {f : Frame m} {c : m.AnyColumn} {g : Option Grain}
    (h : Frame.OpenedFor f c g) {asked : Grain} {opened : Frame.Opened m}
    (hopened : f.applyGrain mode asked = .ok (.enter opened)) :
    Frame.OpenedFor opened.1 c g ∧ opened.1.table = f.table ∧ opened.1.path = f.path := by
  obtain ⟨_, _, _, -, -, -, hframe⟩ := applyGrain_enter_cases hopened
  rw [hframe]
  exact ⟨{ h with grain := rfl }, rfl, rfl⟩

/-- What steps keep: the keys in progress are those of the stack, and the stack is traced. -/
structure State.Traces (root : m.Member) (s : State m) : Prop where
  keyed : State.Keyed s
  stack : Traced root (s.top :: s.below)

theorem traces_of_moves {root : m.Member} {s s' : State m} (h : State.Traces root s)
    (hmoves : Moves mode scope s (.next s')) : State.Traces root s' := by
  obtain ⟨hkeyed, hstack⟩ := h
  -- the top frame, or the one that becomes it, reads on and stays where it is
  have hreads : ∀ {f : Frame m} {fs : List (Frame m)} (rest : Template) (out : String),
      Traced root (f :: fs) → Traced root ({ f with rest, out } :: fs) := by
    intro f fs rest out hf
    obtain ⟨c, g, hopened⟩ := hf.opened f List.mem_cons_self
    exact hf.replace rfl rfl ⟨c, g, { hopened with }⟩
  have hpopped : ∀ {sql}, s.finish sql = .next s' → State.Traces root s' := by
    intro sql hfinish
    unfold State.finish at hfinish
    split at hfinish
    · cases hfinish
    · rename_i parent below hbelow
      cases hfinish
      have hkeyed' := hkeyed.finish hbelow
      rw [hbelow] at hstack
      exact ⟨hkeyed', hreads _ _ hstack.tail⟩
  generalize ho : Outcome.next s' = o at hmoves
  cases hmoves with
  | text hrest haction =>
    cases ho
    exact ⟨hkeyed, hreads _ _ hstack⟩
  | enter hrest haction hcheck =>
    cases ho
    obtain ⟨⟨joins, hjoins⟩, hopened⟩ := openedFor_of_action haction
    exact ⟨hkeyed.enter _ _ _, (hreads _ s.top.out hstack).push hjoins hopened⟩
  | finish hrest hgrain => exact hpopped ho.symm
  | truncate hrest hgrain hsql => exact hpopped ho.symm
  | regrain hrest hgrain hopened =>
    cases ho
    obtain ⟨c, g, htop⟩ := hstack.opened s.top List.mem_cons_self
    obtain ⟨hopened', htable, hpath⟩ := openedFor_of_applyGrain htop hopened
    exact ⟨hkeyed.regrain (applyGrain_key hopened), hstack.replace htable hpath ⟨c, g, hopened'⟩⟩

/-- A segment is about to open a frame. -/
def State.Opening (mode : Mode) (scope : Scope m) (s : State m) (f : Frame.Opened m) : Prop :=
  ∃ segment rest q, s.top.rest = segment :: rest ∧
    segment.action mode scope s.top = .ok (q, .enter f)

/-- A step fails for a circle only where a frame is refused whose key is in progress. -/
theorem opening_of_step {s : State m} {chain : List String}
    (h : step mode scope s = .error (.cycle chain)) :
    ∃ f, s.Opening mode scope f ∧ s.checkEnter f.1 = .error (.cycle chain) := by
  have hcyclic : (CompileError.cycle chain).kind = .cyclic := rfl
  unfold step at h
  split at h
  · rename_i segment rest hrest
    rcases bind_error h with h | ⟨⟨q, action⟩, haction, h⟩
    · exact (acyclic_action _ _ _ _ _ h hcyclic).elim
    · cases action with
      | text sql => cases h
      | enter f =>
        rcases bind_error h with h | ⟨_, -, h⟩
        · exact ⟨f, ⟨segment, rest, q, hrest, haction⟩, h⟩
        · cases h
  · split at h
    · cases h
    · rcases bind_error h with h | ⟨action, -, h⟩
      · exact (acyclic_applyGrain _ _ _ _ h hcyclic).elim
      · cases action <;> cases h

theorem key_of_checkEnter {s : State m} {f : Frame m} {chain : List String}
    (h : s.checkEnter f = .error (.cycle chain)) : ∃ k ∈ s.inProgress, f.key = some k := by
  unfold State.checkEnter at h
  split at h
  · rename_i hany
    obtain ⟨k, hk, hmem⟩ := (Option.any_eq_true _ _).1 hany
    exact ⟨k, List.contains_iff_mem.1 hmem, hk⟩
  · split at h <;> cases h

/-- A refused frame does again what a frame of the stack does, unless texts are mistaken. -/
theorem repeats_of_refused {s : State m} (h : State.Traces scope.root s) {f : Frame.Opened m}
    (hopening : s.Opening mode scope f) {chain : List String}
    (hrefused : s.checkEnter f.1 = .error (.cycle chain))
    (hplaces : ∀ u p, p ≠ [] → tableAt scope.root p = .ok u → Text.join "_" p ≠ scope.root.1.name)
    (harguments : ∀ c ∈ m.columns, c.TellsArguments) :
    ∃ g ∈ s.top :: s.below, Frame.Repeats g f.1 := by
  obtain ⟨segment, rest, q, -, haction⟩ := hopening
  obtain ⟨⟨joins, hjoins⟩, c, g, hf⟩ := openedFor_of_action haction
  obtain ⟨hleads, -⟩ := List.pairwise_cons.1 (h.stack.push hjoins ⟨c, g, hf⟩).leads
  have hrooted := (h.stack.push hjoins ⟨c, g, hf⟩).rooted f.1 List.mem_cons_self
  obtain ⟨k, hk, hkey⟩ := key_of_checkEnter hrefused
  rw [h.keyed, List.mem_filterMap] at hk
  obtain ⟨f', hf', hk⟩ := hk
  obtain ⟨c', g', hopened⟩ := h.stack.opened f' hf'
  obtain ⟨way, hway⟩ := hleads f' hf'
  refine ⟨f', hf', repeats_of_key hopened hf hway (hk.trans hkey.symm) (fun hroot hne => ?_)
    (harguments c'.1 c'.2)⟩
  rw [(h.stack.rooted f' hf').home (fun _ => rfl) hroot]
  exact hplaces _ _ hne (tableAt_eq_ok_iff.2 hrooted)

/-! ## Runs -/

/-- Steps lead from one state to another. -/
def Reaches (mode : Mode) (scope : Scope m) : State m → State m → Prop :=
  Relation.ReflTransGen fun s s' => step mode scope s = .ok (.next s')

theorem traces_of_reaches {root : m.Member} {s s' : State m} (hreaches : Reaches mode scope s s')
    (h : State.Traces root s) : State.Traces root s' := by
  induction hreaches with
  | refl => exact h
  | tail _ hstep ih => exact traces_of_moves ih (moves_of_step hstep)

/-- A run that fails comes to a state whose step fails. -/
theorem step_of_run_error {s : State m} {e : CompileError} (h : run mode scope s = .error e) :
    ∃ s', Reaches mode scope s s' ∧ step mode scope s' = .error e := by
  induction hk : s.work using Nat.strongRecOn generalizing s with
  | ind n ih =>
    unfold run at h
    split at h
    · rename_i e' hstep
      cases h
      exact ⟨s, .refl, hstep⟩
    · cases h
    · rename_i s' hstep
      have hless := step_work_lt hstep
      rw [hk] at hless
      obtain ⟨s'', hreaches, hfails⟩ := ih _ hless h rfl
      exact ⟨s'', .head hstep hreaches, hfails⟩

/-- The expansion of a column comes to a state. -/
def ComesTo (mode : Mode) (scope : Scope m) (path : JoinPath) (column : String)
    (arguments : Arguments) (grain : Option Grain) (s : State m) : Prop :=
  ∃ t reached f, walk (stepsText path column) scope.root [] path = .ok (t, reached) ∧
    openColumn t reached column .empty arguments grain (stepsText path column) = .ok f ∧
    Reaches mode scope ⟨f.1, [], f.1.key.toList, f.1.path.record []⟩ s

theorem traces_of_comesTo {path : JoinPath} {column : String} {arguments : Arguments}
    {grain : Option Grain} {s : State m} (h : ComesTo mode scope path column arguments grain s) :
    State.Traces scope.root s := by
  obtain ⟨t, reached, f, hwalk, hopen, hreaches⟩ := h
  obtain ⟨htable, hpath, hopened⟩ := openedFor_of_openColumn hopen
  have hleads := leads_of_walk hwalk
  rw [← htable, ← hpath] at hleads
  refine traces_of_reaches hreaches ⟨?_, ⟨?_, List.pairwise_singleton _ _, ?_⟩⟩
  · unfold State.Keyed
    rw [List.filterMap_cons]
    cases f.1.key <;> rfl
  · exact List.forall_mem_singleton.2 hopened
  · refine List.forall_mem_singleton.2 ?_
    have hway := hleads.path_eq
    rw [List.nil_append] at hway
    rwa [hway] at hleads ⊢

/-- When the expansion of a column fails for a circle, and not for its depth, it was about to open a
frame that does again what a frame in progress does. -/
def CyclesRepeat (mode : Mode) (scope : Scope m) (path : JoinPath) (column : String)
    (arguments : Arguments) (grain : Option Grain) : Prop :=
  ∀ chain, expandColumn mode scope path column arguments grain = .error (.cycle chain) →
    ∃ s f, ComesTo mode scope path column arguments grain s ∧ s.Opening mode scope f ∧
      s.checkEnter f.1 = .error (.cycle chain) ∧ ∃ g ∈ s.top :: s.below, Frame.Repeats g f.1

/-- Circles that are reported are circles, in any model, where no way from the root makes the name of
the root and the arguments of every column are told by their text. -/
theorem expandColumn_cyclesRepeat (mode : Mode) (scope : Scope m)
    (hplaces : ∀ u p, p ≠ [] → tableAt scope.root p = .ok u → Text.join "_" p ≠ scope.root.1.name)
    (harguments : ∀ c ∈ m.columns, c.TellsArguments) (path : JoinPath) (column : String)
    (arguments : Arguments) (grain : Option Grain) :
    CyclesRepeat mode scope path column arguments grain := by
  intro chain h
  have hcyclic : (CompileError.cycle chain).kind = .cyclic := rfl
  rcases bind_error h with h | ⟨⟨t, reached⟩, hwalk, h⟩
  · exact (acyclic_walk _ _ _ _ _ h hcyclic).elim
  rcases bind_error h with h | ⟨opened, hopen, h⟩
  · exact (acyclic_openColumn _ _ _ _ _ _ _ _ h hcyclic).elim
  obtain ⟨s, hreaches, hfails⟩ := step_of_run_error h
  have hcomes : ComesTo mode scope path column arguments grain s :=
    ⟨t, reached, opened, hwalk, hopen, hreaches⟩
  obtain ⟨f, hopening, hrefused⟩ := opening_of_step hfails
  exact ⟨s, f, hcomes, hopening, hrefused,
    repeats_of_refused (traces_of_comesTo hcomes) hopening hrefused hplaces harguments⟩

end

end

/-! ## A column that is cut out of itself -/

/-- Days are cut out of days. -/
def shows : Table where
  name := "shows"
  source := .physical none "shows"
  columns := [
    { name := "held", formula := "\x7b\x7b$held_at\x7d\x7d"
      parameters := [
        { name := "calendar", allowed := some ["civil", "season"], default := some "civil" }]
      kind := .timeDimension [
        { grain := .day
          formula := some "CAST(\x7b\x7bsql column='held[grain:day]'\x7d\x7d AS DATE)" }] }]
  joins := [
    { name := "venue", table := "venues"
      condition := "\x7b\x7b$venue_id\x7d\x7d = \x7b\x7bvenue.$id\x7d\x7d" }]

/-- Shows and venues. -/
def circuit : Model where
  tables := [shows, venues]

/-- The shows of the circuit. -/
def circuitShows : circuit.Member := ⟨shows, List.mem_cons_self⟩

/-- The frame in progress has gone over to the formula of its grain; what it is about to open is the
column at this grain again. -/
theorem expandColumn_cyclesRepeat_held :
    let mode : Mode := ⟨.postgres, false⟩
    let scope := Scope.of circuitShows .empty
    let season := Arguments.ofList [("calendar", "season")]
    (∀ u p, p ≠ [] → tableAt scope.root p = .ok u → Text.join "_" p ≠ scope.root.1.name) ∧
    (∀ c ∈ circuit.columns, c.TellsArguments) ∧
    ∃ s f, ComesTo mode scope [] "held" season (some .day) s ∧ s.Opening mode scope f ∧
      s.checkEnter f.1 = .error (.cycle ["shows.held[day]", "shows.held"]) ∧
      ∃ g ∈ s.top :: s.below, Frame.Repeats g f.1 := by
  intro mode scope season
  have hstar : circuit.TellsPlaces := tellsPlaces_of_star (by decide +kernel)
  have hplaces : ∀ u p, p ≠ [] → tableAt scope.root p = .ok u →
      Text.join "_" p ≠ scope.root.1.name := fun u p => hstar scope.root u p
  have harguments : ∀ c ∈ circuit.columns, c.TellsArguments := by
    have hnames : ∀ c ∈ circuit.columns, ∀ p ∈ c.parameters,
        ',' ∉ p.name.toList ∧ '=' ∉ p.name.toList ∧ '@' ∉ p.name.toList := by
      decide +kernel
    have hlisted : ∀ c ∈ circuit.columns, ∀ p ∈ c.parameters, p.allowed.isSome = true := by
      decide +kernel
    have hvalues : ∀ c ∈ circuit.columns, ∀ p ∈ c.parameters, ∀ v ∈ p.allowed.getD [],
        ',' ∉ v.toList := by
      decide +kernel
    exact fun c hc => tellsArguments_of_plain (hnames c hc) fun p hp v hcheck =>
      hvalues c hc p hp v (mem_allowed_of_check (hlisted c hc p hp) hcheck)
  exact ⟨hplaces, harguments, expandColumn_cyclesRepeat mode scope hplaces harguments [] "held"
    season (some .day) _ (by decide +kernel)⟩

/-! ## A join with the name of its table -/

/-- A team is called what its club is called. -/
def team : Table where
  name := "team"
  source := .physical none "teams"
  columns := [{ name := "name", formula := "\x7b\x7bteam.name\x7d\x7d", kind := .dimension }]
  joins := [
    { name := "team", table := "clubs"
      condition := "\x7b\x7b$club_id\x7d\x7d = \x7b\x7bteam.$id\x7d\x7d" }]

/-- Clubs with their names. -/
def clubs : Table where
  name := "clubs"
  source := .physical none "clubs"
  columns := [{ name := "name", formula := "\x7b\x7b$name\x7d\x7d", kind := .dimension }]

/-- A team and clubs. -/
def cup : Model where
  tables := [team, clubs]

/-- The team of the cup. -/
def cupTeam : cup.Member := ⟨team, List.mem_cons_self⟩

/-- The names of the team and of its club are different columns of different tables, at the ends of
different paths, but their keys are the same. -/
theorem expandColumn_cycle_team :
    let mode : Mode := ⟨.sqlite, false⟩
    let scope := Scope.of cupTeam .empty
    expandColumn mode scope [] "name" .empty none = .error (.cycle ["team.name", "team.name"]) ∧
      ¬ CyclesRepeat mode scope [] "name" .empty none := by
  intro mode scope
  have hcycle : expandColumn mode scope [] "name" .empty none =
      .error (.cycle ["team.name", "team.name"]) := by
    decide +kernel
  refine ⟨hcycle, fun h => ?_⟩
  obtain ⟨s, f, ⟨t, reached, start, hwalk, hopen, hreaches⟩,
    ⟨segment, rest, q, hrest, haction⟩, -, g, hg, hrepeats⟩ := h _ hcycle
  cases hwalk
  have hstart : (openColumn cupTeam [] "name" .empty .empty none "name").toOption.all
      (fun start => start.1.rest == [.reference ["team"] (.logical "name")] &&
        (step mode scope
          ⟨start.1, [], start.1.key.toList, start.1.path.record []⟩).toOption.isNone) = true := by
    decide +kernel
  have hopen : openColumn cupTeam [] "name" .empty .empty none "name" = .ok start := hopen
  obtain ⟨-, hpath, -⟩ := openedFor_of_openColumn hopen
  rw [hopen] at hstart
  simp only [Except.toOption, Option.all_some, Bool.and_eq_true, beq_iff_eq,
    Option.isNone_iff_eq_none] at hstart
  obtain ⟨htemplate, hstops⟩ := hstart
  -- the first step fails, so the state that is come to is the first one
  rcases Relation.ReflTransGen.cases_head hreaches with rfl | ⟨s', hstep, -⟩
  · rw [htemplate, List.cons.injEq] at hrest
    obtain ⟨rfl, -⟩ := hrest
    obtain ⟨joins, name, fixed, _, t, hleads, hopened, hsegment⟩ := action_enter_cases haction
    obtain ⟨-, hpath', -⟩ := openedFor_of_openColumn hopened
    obtain ⟨hsegment, -⟩ : _ ∧ fixed = .empty := hsegment.resolve_right (by simp)
    cases hsegment
    have hclub : f.1.path = ["team"] := by
      rw [hpath', hleads.path_eq, hpath]
      rfl
    rw [List.mem_singleton.1 hg] at hrepeats
    have hsame := hrepeats.1
    rw [hclub, hpath] at hsame
    cases hsame
  · rw [hstep] at hstops
    cases hstops

end Expansion

end Rollup
