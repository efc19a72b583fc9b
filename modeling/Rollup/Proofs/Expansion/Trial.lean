/-
What building a model rules out. Every join condition of an accepted model was tried out once, at
its own table. At the end of a path the same condition opens the same columns with the same
arguments, only further along, so the stack there goes step by step with the stack of the trial: it
may still fail, for want of a value or of SQL in the dialect, but never for a circle.
-/
import Rollup.Model.Check
import Rollup.Proofs.Expansion.Stack
import Mathlib.Data.Option.Defs

namespace Rollup

/-! ## What was tried out -/

namespace Model

theorem check_of_build {tables : List Table} {depth : Nat} {m : Model}
    (h : build tables depth = .ok m) : m.check = .ok () := by
  obtain ⟨_, hcheck, h⟩ := bind_ok h
  cases h
  exact hcheck

theorem condition_of_check {m : Model} (h : m.check = .ok ()) (t : m.Member) {j : Join}
    (hj : j ∈ t.1.joins) (hkind : j.kind ≠ .cross) :
    ∃ f, resolveTemplate trial (Scope.of t .empty) [] j.condition ("join:" ++ j.name) = .ok f := by
  unfold check at h
  dsimp only at h
  split at h
  · cases h
  obtain ⟨_, -, h⟩ := bind_ok h
  obtain ⟨⟨_, memo⟩, htables, -⟩ := map_ok h
  obtain ⟨_, _, htable⟩ := run_forM_ok htables t (List.mem_attach _ _)
  obtain ⟨_, _, -, hjoins⟩ := run_bind_ok htable
  have hmem : j ∈ t.1.joins.filter (·.kind != .cross) :=
    List.mem_filter.2 ⟨hj, bne_iff_ne.2 hkind⟩
  obtain ⟨_, _, hjoin⟩ := run_forM_ok hjoins j hmem
  obtain ⟨f, _, hlift, -⟩ := run_bind_ok hjoin
  obtain ⟨f', hf, -⟩ := bind_ok hlift
  exact ⟨f', hf⟩

end Model

/-! ## Failures of a kind -/

/-- A computation that does not fail with an error of a kind. -/
def Avoids {α : Type} (k : ErrorKind) (x : Except CompileError α) : Prop :=
  ∀ e, x = .error e → e.kind ≠ k

section

variable {α β : Type} {k : ErrorKind}

theorem avoids_ok (a : α) : Avoids k (.ok a) :=
  fun _ h => by cases h

theorem avoids_error {e : CompileError} (he : e.kind ≠ k) :
    Avoids k (.error e : Except CompileError α) := by
  intro e' h
  cases h
  exact he

theorem Avoids.bind {x : Except CompileError α} {f : α → Except CompileError β}
    (hx : Avoids k x) (hf : ∀ a, x = .ok a → Avoids k (f a)) : Avoids k (x >>= f) := by
  intro e h
  rcases bind_error h with h | ⟨a, ha, h⟩
  · exact hx e h
  · exact hf a ha e h

theorem Avoids.map {x : Except CompileError α} (f : α → β) (hx : Avoids k x) :
    Avoids k (x.map f) :=
  fun e h => hx e (map_error h)

theorem Avoids.of_bind {x : Except CompileError α} {f : α → Except CompileError β}
    (h : Avoids k (x >>= f)) : Avoids k x := by
  intro e he
  rw [he] at h
  exact h e rfl

theorem Avoids.of_map {x : Except CompileError α} {f : α → β} (h : Avoids k (x.map f)) :
    Avoids k x := by
  intro e he
  rw [he] at h
  exact h e rfl

/-- Values are bound or are invalid arguments. -/
theorem avoids_bindArguments (hk : k ≠ .invalidArgument) (owner : String)
    (fixed passed : Arguments) (ps : List Parameter) :
    Avoids k (bindArguments owner fixed passed ps) := by
  unfold bindArguments
  generalize Arguments.empty = bound
  induction ps generalizing bound with
  | nil => exact avoids_ok _
  | cons p ps ih =>
    rw [List.foldlM_cons]
    refine Avoids.bind ?_ fun b _ => ih b
    split
    · exact avoids_ok _
    · split
      · exact avoids_ok _
      · exact avoids_error hk.symm

theorem avoids_fixedGrain (hk : k ≠ .invalidArgument) (owner : String) (c : Column)
    (grain : Option Grain) (es : List (String × String)) :
    Avoids k (fixedGrain owner c grain es) := by
  induction es generalizing grain with
  | nil => exact avoids_ok _
  | cons e rest ih =>
    obtain ⟨name, value⟩ := e
    unfold fixedGrain
    split
    · exact ih _
    · split
      · split
        · exact ih _
        · exact avoids_error hk.symm
      · exact avoids_error hk.symm

end

/-- A computation that does not fail for a circle. -/
def Acyclic {α : Type} (x : Except CompileError α) : Prop :=
  ∀ e, x = .error e → e.kind ≠ .cyclic

section

variable {α β : Type}

theorem acyclic_ok (a : α) : Acyclic (.ok a) :=
  avoids_ok a

theorem acyclic_error {e : CompileError} (he : e.kind ≠ .cyclic) :
    Acyclic (.error e : Except CompileError α) :=
  avoids_error he

theorem acyclic_unresolvable (table reference : String) (fault : ReferenceFault) :
    Acyclic (.error (.unresolvable table reference fault) : Except CompileError α) :=
  acyclic_error (by simp [CompileError.kind])

theorem acyclic_invalidArgument (column argument : String) (fault : ArgumentFault) :
    Acyclic (.error (.invalidArgument column argument fault) : Except CompileError α) :=
  acyclic_error (by simp [CompileError.kind])

theorem acyclic_invalidModel (fault : ModelFault) :
    Acyclic (.error (.invalidModel fault) : Except CompileError α) :=
  acyclic_error (by simp [CompileError.kind])

theorem acyclic_unsupported (dialect : Dialect) (feature : Feature) :
    Acyclic (.error (.unsupported dialect feature) : Except CompileError α) :=
  acyclic_error (by simp [CompileError.kind])

theorem Acyclic.bind {x : Except CompileError α} {f : α → Except CompileError β}
    (hx : Acyclic x) (hf : ∀ a, x = .ok a → Acyclic (f a)) : Acyclic (x >>= f) :=
  Avoids.bind hx hf

theorem Acyclic.map {x : Except CompileError α} (f : α → β) (hx : Acyclic x) :
    Acyclic (x.map f) :=
  Avoids.map f hx

end

namespace Expansion

variable {m : Model}

theorem acyclic_walk (reference : String) (t : m.Member) (path : JoinPath) (joins : List String) :
    Acyclic (walk reference t path joins) := by
  induction joins generalizing t path with
  | nil => exact acyclic_ok _
  | cons name rest ih =>
    unfold walk
    split
    · exact acyclic_unresolvable _ _ _
    · split
      · exact acyclic_unresolvable _ _ _
      · exact ih _ _

theorem acyclic_readTemplate (t : Table) (reference text : String) :
    Acyclic (readTemplate t reference text) := by
  unfold readTemplate
  generalize Template.parse text = parsed
  cases parsed with
  | error e => exact acyclic_unresolvable _ _ _
  | ok u => exact acyclic_ok _

theorem acyclic_openColumn (t : m.Member) (path : JoinPath) (name : String)
    (fixed passed : Arguments) (grain : Option Grain) (reference : String) :
    Acyclic (openColumn t path name fixed passed grain reference) := by
  unfold openColumn
  split
  rotate_left
  · exact acyclic_unresolvable _ _ _
  refine Acyclic.bind (avoids_bindArguments (by decide) _ _ _ _) fun arguments _ => ?_
  refine Acyclic.bind (avoids_fixedGrain (by decide) _ _ _ _) fun grain _ => ?_
  cases grain with
  | none => exact (acyclic_readTemplate _ _ _).bind fun _ _ => acyclic_ok _
  | some g =>
    dsimp only
    split
    · exact acyclic_invalidArgument _ _ _
    · exact (acyclic_readTemplate _ _ _).bind fun _ _ => acyclic_ok _

theorem acyclic_tableValue (mode : Mode) (scope : Scope m) (f : Frame m) (context name : String) :
    Acyclic (tableValue mode scope f context name) := by
  unfold tableValue
  dsimp only
  split
  · exact acyclic_ok _
  · split
    · exact acyclic_ok _
    · exact acyclic_unresolvable _ _ _

theorem acyclic_action (mode : Mode) (scope : Scope m) (f : Frame m) (segment : Segment) :
    Acyclic (segment.action mode scope f) := by
  cases segment with
  | literal text => exact acyclic_ok _
  | reference joins target =>
    cases target with
    | physical name => exact (acyclic_walk _ _ _ _).bind fun _ _ => acyclic_ok _
    | logical name =>
      exact (acyclic_walk _ _ _ _).bind fun _ _ =>
        (acyclic_openColumn _ _ _ _ _ _ _).bind fun _ _ => acyclic_ok _
  | pinned joins name values =>
    exact (acyclic_walk _ _ _ _).bind fun _ _ =>
      (acyclic_openColumn _ _ _ _ _ _ _).bind fun _ _ => acyclic_ok _
  | columnArgument name =>
    simp only [Segment.action]
    split
    · exact acyclic_ok _
    · exact (acyclic_tableValue _ _ _ _ _).map _
  | tableArgument name => exact (acyclic_tableValue _ _ _ _ _).map _
  | columnBase =>
    simp only [Segment.action]
    split
    · exact acyclic_ok _
    · exact acyclic_unresolvable _ _ _

theorem acyclic_applyGrain (mode : Mode) (f : Frame m) (g : Grain) :
    Acyclic (f.applyGrain mode g) := by
  have htruncated : ∀ c, Acyclic (Frame.applyGrain.truncated mode f g c) := by
    intro c
    unfold Frame.applyGrain.truncated
    split
    · exact acyclic_ok _
    · exact acyclic_unsupported _ _
  unfold Frame.applyGrain
  split
  · exact acyclic_ok _
  · split
    · split
      · exact (acyclic_readTemplate _ _ _).bind fun _ _ => acyclic_ok _
      · exact htruncated _
    · exact htruncated _

/-- What no step fails with while something holds that steps keep, a run does not fail with. -/
theorem avoids_run {k : ErrorKind} {mode : Mode} {scope : Scope m} {I : State m → Prop}
    (hstep : ∀ s, I s → Avoids k (step mode scope s))
    (hkept : ∀ s s', I s → Moves mode scope s (.next s') → I s') {s : State m} (hs : I s) :
    Avoids k (run mode scope s) := by
  induction hk : s.work using Nat.strongRecOn generalizing s with
  | ind n ih =>
    have hsafe := hstep s hs
    unfold run
    split
    · rename_i e h
      rw [h] at hsafe
      exact avoids_error (hsafe e rfl)
    · exact avoids_ok _
    · rename_i s' h
      have hless := step_work_lt h
      exact ih _ (hk ▸ hless) (hkept s s' hs (moves_of_step h)) rfl

/-! ## Further along a path -/

/-- The same joins lead on from the end of any path. -/
theorem Leads.further {t u : m.Member} {path q : JoinPath} {joins : List String}
    (h : Leads t path joins u q) (start : JoinPath) :
    Leads t (start ++ path) joins u (start ++ q) := by
  induction h with
  | here => exact .here
  | along hjoin htarget _ ih =>
    refine .along hjoin htarget ?_
    rwa [List.append_assoc]

/-- No join leads back to the empty path. -/
theorem Leads.home {home t u : m.Member} {path q : JoinPath} {joins : List String}
    (h : Leads t path joins u q) (ht : path = [] → t = home) (hq : q = []) : u = home := by
  cases h with
  | here => exact ht hq
  | along _ _ hrest =>
    have hpath := hrest.path_eq
    rw [hq, List.append_assoc] at hpath
    exact absurd hpath.symm (by simp)

theorem join_append (sep : String) {p q : List String} (hp : p ≠ []) (hq : q ≠ []) :
    Text.join sep (p ++ q) = Text.join sep p ++ sep ++ Text.join sep q := by
  induction p with
  | nil => exact (hp rfl).elim
  | cons name rest ih =>
    cases rest with
    | nil =>
      cases q with
      | nil => exact (hq rfl).elim
      | cons next q => rfl
    | cons next rest =>
      have ih := ih (List.cons_ne_nil _ _)
      calc Text.join sep (name :: next :: rest ++ q)
          = name ++ sep ++ Text.join sep (next :: rest ++ q) := rfl
        _ = Text.join sep (name :: next :: rest) ++ sep ++ Text.join sep q := by
          rw [ih]
          simp only [Text.join, String.append_assoc]

/-- Places that are the same further along a path were the same before. -/
theorem placeText_of_further (start : JoinPath) {home t u : m.Member} {p q : JoinPath}
    (hp : p = [] → t = home) (hq : q = [] → u = home)
    (h : placeText t.1 (start ++ p) = placeText u.1 (start ++ q)) :
    placeText t.1 p = placeText u.1 q := by
  cases start with
  | nil => exact h
  | cons first rest =>
    have hjoin : Text.join "_" (first :: rest ++ p) = Text.join "_" (first :: rest ++ q) := h
    -- with something behind it the start is longer than alone
    have hlonger : ∀ {r : JoinPath}, r ≠ [] →
        Text.join "_" (first :: rest ++ r) ≠ Text.join "_" (first :: rest) := by
      intro r hr heq
      rw [join_append _ (List.cons_ne_nil _ _) hr, String.append_assoc,
        String.append_eq_left_iff] at heq
      have hlength := congrArg String.length heq
      rw [String.length_append] at hlength
      exact absurd hlength (by simp)
    by_cases hp' : p = []
    · by_cases hq' : q = []
      · rw [hp hp', hq hq', hp', hq']
      · rw [hp', List.append_nil] at hjoin
        exact (hlonger hq' hjoin.symm).elim
    · by_cases hq' : q = []
      · rw [hq', List.append_nil] at hjoin
        exact (hlonger hp' hjoin).elim
      · rw [join_append _ (List.cons_ne_nil _ _) hp', join_append _ (List.cons_ne_nil _ _) hq',
          String.append_right_inj] at hjoin
        have hplace : ∀ (v : m.Member) {r : JoinPath}, r ≠ [] →
            placeText v.1 r = Text.join "_" r := by
          intro v r hr
          cases r with
          | nil => exact (hr rfl).elim
          | cons next r => rfl
        rw [hplace t hp', hplace u hq', hjoin]

/-! ## Frames that follow a trial -/

/-- The keys of frames at two places differ in these alone. -/
structure KeyFollows (place trial : String) (k l : FrameKey) : Prop where
  place : k.place = place
  trial : l.place = trial
  column : k.column = l.column
  signature : k.signature = l.signature

/-- A frame does what the frame `g` did when it was tried out at its own table, `home`; it stands
at the end of a path that starts the same for all frames of the stack. -/
structure FrameFollows (home : m.Member) (start : JoinPath) (f g : Frame m) : Prop where
  table : f.table = g.table
  path : f.path = start ++ g.path
  column : f.column = g.column
  arguments : f.arguments = g.arguments
  rest : f.rest = g.rest
  grain : f.grain = g.grain
  key : Option.Rel (KeyFollows (placeText f.table.1 f.path) (placeText g.table.1 g.path))
    f.key g.key
  home : g.path = [] → g.table = home

variable {home : m.Member} {start : JoinPath} {mode mode' : Mode} {scope scope' : Scope m}

/-- Where the keys of two frames are the same, those of their trials were. -/
theorem FrameFollows.key_eq {f g f' g' : Frame m} (h : FrameFollows home start f g)
    (h' : FrameFollows home start f' g') {k : FrameKey} (hf : f.key = some k)
    (hf' : f'.key = some k) : ∃ l, g.key = some l ∧ g'.key = some l := by
  have hkey := h.key
  have hkey' := h'.key
  rw [hf] at hkey
  rw [hf'] at hkey'
  cases hg : g.key with
  | none =>
    rw [hg] at hkey
    cases hkey
  | some l =>
    cases hg' : g'.key with
    | none =>
      rw [hg'] at hkey'
      cases hkey'
    | some l' =>
      rw [hg] at hkey
      rw [hg'] at hkey'
      cases hkey with | some hkey =>
      cases hkey' with | some hkey' =>
      have hplace : placeText g.table.1 g.path = placeText g'.table.1 g'.path := by
        refine placeText_of_further start h.home h'.home ?_
        rw [← h.path, ← h'.path, ← h.table, ← h'.table, ← hkey.place, ← hkey'.place]
      have hl : l = l' := by
        obtain ⟨place, column, signature⟩ := l
        obtain ⟨place', column', signature'⟩ := l'
        rw [FrameKey.mk.injEq]
        exact ⟨hkey.trial.trans (hplace.trans hkey'.trial.symm),
          hkey.column.symm.trans hkey'.column, hkey.signature.symm.trans hkey'.signature⟩
      exact ⟨l, rfl, by rw [hl]⟩

/-- Wherever both follow the joins, they come to the same table. -/
theorem walk_follows {t u v : m.Member} {path q r : JoinPath} {joins : List String}
    {reference reference' : String} (ht : path = [] → t = home)
    (h : walk reference t (start ++ path) joins = .ok (u, q))
    (h' : walk reference' t path joins = .ok (v, r)) :
    u = v ∧ q = start ++ r ∧ (r = [] → v = home) := by
  have hleads := leads_of_walk h'
  obtain ⟨rfl, rfl⟩ := (leads_of_walk h).unique (hleads.further start)
  exact ⟨rfl, rfl, hleads.home ht⟩

theorem openColumn_follows {t : m.Member} {path : JoinPath} {name reference reference' : String}
    {fixed passed : Arguments} {asked : Option Grain} {f g : Frame.Opened m}
    (ht : path = [] → t = home)
    (h : openColumn t (start ++ path) name fixed passed asked reference = .ok f)
    (h' : openColumn t path name fixed passed asked reference' = .ok g) :
    FrameFollows home start f.1 g.1 := by
  obtain ⟨c, arguments, grain, u, hcolumn, harguments, hgrain, hformula, hf⟩ := openColumn_eq h
  obtain ⟨c', arguments', grain', u', hcolumn', harguments', hgrain', hformula', hg⟩ :=
    openColumn_eq h'
  cases hcolumn.symm.trans hcolumn'
  cases harguments.symm.trans harguments'
  cases hgrain.symm.trans hgrain'
  cases hformula.symm.trans hformula'
  rw [hf, hg]
  exact ⟨rfl, rfl, rfl, rfl, rfl, rfl, .some ⟨rfl, rfl, rfl, rfl⟩, ht⟩

/-- What a segment, or the end of a frame, leads to in both. -/
inductive ActionFollows (home : m.Member) (start : JoinPath) : Action m → Action m → Prop
  | text (sql sql' : String) : ActionFollows home start (.text sql) (.text sql')
  | enter {f g : Frame.Opened m} (h : FrameFollows home start f.1 g.1) :
    ActionFollows home start (.enter f) (.enter g)

/-- A column opened behind some joins. -/
theorem enter_follows {f g : Frame m} (h : FrameFollows home start f g) {joins : List String}
    {name reference : String} {values : Arguments} {path path' : JoinPath}
    {action action' : Action m}
    (ha : (walk reference f.table f.path joins >>= fun (t, path) =>
      openColumn t path name values f.arguments none reference >>= fun opened =>
        .ok (path, .enter opened)) = .ok (path, action))
    (ha' : (walk reference g.table g.path joins >>= fun (t, path) =>
      openColumn t path name values g.arguments none reference >>= fun opened =>
        .ok (path, .enter opened)) = .ok (path', action')) :
    ActionFollows home start action action' := by
  obtain ⟨⟨t, q⟩, hwalk, ha⟩ := bind_ok ha
  obtain ⟨⟨u, r⟩, hwalk', ha'⟩ := bind_ok ha'
  obtain ⟨opened, hopen, ha⟩ := bind_ok ha
  obtain ⟨opened', hopen', ha'⟩ := bind_ok ha'
  cases ha
  cases ha'
  rw [h.table, h.path] at hwalk
  obtain ⟨rfl, rfl, hhome⟩ := walk_follows h.home hwalk hwalk'
  rw [h.arguments] at hopen
  exact .enter (openColumn_follows hhome hopen hopen')

theorem action_follows {f g : Frame m} (h : FrameFollows home start f g) {segment : Segment}
    {path path' : JoinPath} {action action' : Action m}
    (ha : segment.action mode scope f = .ok (path, action))
    (ha' : segment.action mode' scope' g = .ok (path', action')) :
    ActionFollows home start action action' := by
  cases segment with
  | literal text =>
    cases ha
    cases ha'
    exact .text _ _
  | reference joins target =>
    cases target with
    | physical name =>
      obtain ⟨_, -, ha⟩ := bind_ok ha
      obtain ⟨_, -, ha'⟩ := bind_ok ha'
      cases ha
      cases ha'
      exact .text _ _
    | logical name =>
      exact enter_follows h ha ha'
  | pinned joins name values =>
    exact enter_follows h ha ha'
  | columnArgument name =>
    have htext : ∀ {mode : Mode} {scope : Scope m} {f : Frame m} {path action},
        (Segment.columnArgument name).action mode scope f = .ok (path, action) →
        ∃ sql, action = .text sql := by
      intro mode scope f path action ha
      simp only [Segment.action] at ha
      split at ha
      · cases ha
        exact ⟨_, rfl⟩
      · obtain ⟨value, -, heq⟩ := map_ok ha
        cases heq
        exact ⟨_, rfl⟩
    obtain ⟨sql, rfl⟩ := htext ha
    obtain ⟨sql', rfl⟩ := htext ha'
    exact .text _ _
  | tableArgument name =>
    obtain ⟨_, -, heq⟩ := map_ok ha
    obtain ⟨_, -, heq'⟩ := map_ok ha'
    cases heq
    cases heq'
    exact .text _ _
  | columnBase =>
    simp only [Segment.action] at ha ha'
    split at ha
    · split at ha'
      · cases ha
        cases ha'
        exact .text _ _
      · cases ha'
    · cases ha

theorem applyGrain_follows {f g : Frame m} (h : FrameFollows home start f g) {grain : Grain}
    {action action' : Action m} (ha : f.applyGrain mode grain = .ok action)
    (ha' : g.applyGrain mode' grain = .ok action') : ActionFollows home start action action' := by
  -- the column is the same, so both have the grain's formula or neither has
  have hcolumn := h.column
  rcases applyGrain_ok ha with ⟨hf, rfl⟩ | ⟨c, hf, ⟨hnone, sql, rfl, -⟩ |
      ⟨formula, u, opened, hformula, hread, rfl, hopened⟩⟩ <;>
    rcases applyGrain_ok ha' with ⟨hg, rfl⟩ | ⟨c', hg, ⟨hnone', sql', rfl, -⟩ |
      ⟨formula', u', opened', hformula', hread', rfl, hopened'⟩⟩ <;>
    rw [hf, hg] at hcolumn <;> cases hcolumn
  · exact .text _ _
  · exact .text _ _
  · rw [hnone] at hformula'
    cases hformula'
  · rw [hnone'] at hformula
    cases hformula
  · cases hformula.symm.trans hformula'
    cases hread.symm.trans hread'
    refine .enter ?_
    rw [hopened, hopened']
    exact { h with rest := rfl, grain := rfl }

theorem applyGrain_key {f : Frame m} {g : Grain} {opened : Frame.Opened m}
    (h : f.applyGrain mode g = .ok (.enter opened)) : opened.1.key = f.key := by
  obtain ⟨_, _, _, -, -, -, hopened⟩ := applyGrain_enter_cases h
  rw [hopened]
  rfl

/-! ## Stacks that follow a trial -/

/-- The keys in progress are those of the frames on the stack. -/
def State.Keyed (s : State m) : Prop :=
  s.inProgress = (s.top :: s.below).filterMap (·.key)

/-- A stack goes with the stack of the trial, frame by frame. -/
structure StateFollows (home : m.Member) (start : JoinPath) (s t : State m) : Prop where
  frames : List.Forall₂ (FrameFollows home start) (s.top :: s.below) (t.top :: t.below)
  keyed : State.Keyed s
  trialKeyed : State.Keyed t

/-- What a step leads to in both: to the end, or to stacks that go on together. -/
inductive OutcomeFollows (home : m.Member) (start : JoinPath) : Outcome m → Outcome m → Prop
  | done (f g : Fragment) : OutcomeFollows home start (.done f) (.done g)
  | next {s t : State m} (h : StateFollows home start s t) :
    OutcomeFollows home start (.next s) (.next t)

theorem StateFollows.top {s t : State m} (h : StateFollows home start s t) :
    FrameFollows home start s.top t.top :=
  (List.forall₂_cons.1 h.frames).1

theorem StateFollows.below {s t : State m} (h : StateFollows home start s t) :
    List.Forall₂ (FrameFollows home start) s.below t.below :=
  (List.forall₂_cons.1 h.frames).2

/-- A column that could be opened in the trial can be opened. -/
theorem checkEnter_follows {s t : State m} (h : StateFollows home start s t) {f g : Frame m}
    (hf : FrameFollows home start f g) (ht : t.checkEnter g = .ok ()) :
    s.checkEnter f = .ok () := by
  unfold State.checkEnter at ht ⊢
  split at ht
  · cases ht
  rename_i hnew
  split at ht
  · cases ht
  rename_i hroom
  rw [if_neg, if_neg]
  · rwa [h.below.length_eq]
  · -- a key in progress would be one that the trial had in progress
    intro hany
    obtain ⟨k, hk, hmem⟩ := (Option.any_eq_true _ _).1 hany
    rw [List.contains_iff_mem, h.keyed, List.mem_filterMap] at hmem
    obtain ⟨f', hf', hk'⟩ := hmem
    obtain ⟨g', hg', hfollows⟩ := exists_beside h.frames hf'
    obtain ⟨l, hl, hl'⟩ := hf.key_eq hfollows hk hk'
    refine hnew ((Option.any_eq_true _ _).2 ⟨l, hl, ?_⟩)
    rw [List.contains_iff_mem, h.trialKeyed, List.mem_filterMap]
    exact ⟨g', hg', hl'⟩

theorem State.Keyed.enter {s : State m} (h : State.Keyed s) (f : Frame m) (rest : Template)
    (joins : List JoinPath) :
    State.Keyed ⟨f, { s.top with rest } :: s.below, f.key.toList ++ s.inProgress, joins⟩ := by
  have hbelow : s.inProgress = ({ s.top with rest } :: s.below).filterMap (·.key) := h
  unfold State.Keyed
  rw [List.filterMap_cons, hbelow]
  cases f.key <;> rfl

theorem State.Keyed.regrain {s : State m} (h : State.Keyed s) {f : Frame m}
    (hkey : f.key = s.top.key) : State.Keyed { s with top := f } := by
  unfold State.Keyed at h ⊢
  rw [List.filterMap_cons] at h ⊢
  rw [hkey]
  exact h

theorem State.Keyed.finish {s : State m} {f : Frame m} {below : List (Frame m)}
    (h : State.Keyed s) (hbelow : s.below = f :: below) :
    (match s.top.key with
      | some k => s.inProgress.erase k
      | none => s.inProgress) = (f :: below).filterMap (·.key) := by
  unfold State.Keyed at h
  rw [hbelow, List.filterMap_cons] at h
  cases hkey : s.top.key with
  | none =>
    rw [hkey] at h
    exact h
  | some k =>
    rw [hkey] at h
    dsimp only at h ⊢
    rw [h, List.erase_cons_head]

theorem finish_follows {s t : State m} (h : StateFollows home start s t) (sql sql' : String) :
    OutcomeFollows home start (s.finish sql) (t.finish sql') := by
  have hbelow := h.below
  unfold State.finish
  cases hs : s.below with
  | nil =>
    rw [hs] at hbelow
    cases ht : t.below with
    | nil => exact .done _ _
    | cons g below' =>
      rw [ht] at hbelow
      cases hbelow
  | cons f below =>
    rw [hs] at hbelow
    cases ht : t.below with
    | nil =>
      rw [ht] at hbelow
      cases hbelow
    | cons g below' =>
      rw [ht] at hbelow
      obtain ⟨hf, hrest⟩ := List.forall₂_cons.1 hbelow
      have hparent : FrameFollows home start { f with out := f.out ++ sql }
          { g with out := g.out ++ sql' } :=
        { hf with }
      have hkeyed := h.keyed.finish hs
      have hkeyed' := h.trialKeyed.finish ht
      exact .next ⟨.cons hparent hrest, hkeyed, hkeyed'⟩

/-- A step beside one of the trial: the same one, or a failure that is no circle. -/
def StepFollows (home : m.Member) (start : JoinPath) (x : Except CompileError (Outcome m))
    (o : Outcome m) : Prop :=
  match x with
  | .ok o' => OutcomeFollows home start o' o
  | .error e => e.kind ≠ .cyclic

/-- Where the trial took a step, the stack that goes with it takes the same one or fails, and not
for a circle. -/
theorem step_follows {s t : State m} {o : Outcome m} (h : StateFollows home start s t)
    (ht : Moves mode' scope' t o) : StepFollows home start (step mode scope s) o := by
  have htop := h.top
  cases ht with
  | text hrest haction =>
    rw [← htop.rest] at hrest
    simp only [step, hrest]
    cases ha : Segment.action mode scope s.top _ with
    | error e => exact acyclic_action _ _ _ _ e ha
    | ok r =>
      obtain ⟨q, action⟩ := r
      cases action_follows htop ha haction with
      | text sql' _ => exact .next ⟨.cons { htop with rest := rfl } h.below, h.keyed, h.trialKeyed⟩
  | @enter _ rest _ _ hrest haction hcheck =>
    rw [← htop.rest] at hrest
    simp only [step, hrest]
    cases ha : Segment.action mode scope s.top _ with
    | error e => exact acyclic_action _ _ _ _ e ha
    | ok r =>
      obtain ⟨q, action⟩ := r
      cases action_follows htop ha haction with
      | @enter f _ hf =>
        have hbelow : List.Forall₂ (FrameFollows home start) ({ s.top with rest } :: s.below)
            ({ t.top with rest } :: t.below) := .cons { htop with rest := rfl } h.below
        have hcheck' := checkEnter_follows h hf hcheck
        simp only [bind, Except.bind, hcheck']
        exact .next ⟨.cons hf hbelow, h.keyed.enter _ _ _, h.trialKeyed.enter _ _ _⟩
  | finish hrest hgrain =>
    rw [← htop.rest] at hrest
    rw [← htop.grain] at hgrain
    simp only [step, hrest, hgrain]
    exact finish_follows h _ _
  | @truncate g sql hrest hgrain hsql =>
    rw [← htop.rest] at hrest
    rw [← htop.grain] at hgrain
    simp only [step, hrest, hgrain]
    cases ha : s.top.applyGrain mode g with
    | error e => exact acyclic_applyGrain _ _ _ e ha
    | ok action =>
      cases applyGrain_follows htop ha hsql with
      | text sql' _ => exact finish_follows h _ _
  | @regrain g opened hrest hgrain hopened =>
    rw [← htop.rest] at hrest
    rw [← htop.grain] at hgrain
    simp only [step, hrest, hgrain]
    cases ha : s.top.applyGrain mode g with
    | error e => exact acyclic_applyGrain _ _ _ e ha
    | ok action =>
      cases applyGrain_follows htop ha hopened with
      | @enter f _ hf =>
        have hkeyed := h.keyed.regrain (applyGrain_key ha)
        have hkeyed' := h.trialKeyed.regrain (applyGrain_key hopened)
        exact .next ⟨.cons hf h.below, hkeyed, hkeyed'⟩

/-- Beside a trial that came to its end no run fails for a circle. -/
theorem acyclic_run {s t : State m} {f : Fragment} (h : StateFollows home start s t)
    (ht : run mode' scope' t = .ok f) : Acyclic (run mode scope s) := by
  induction hk : s.work using Nat.strongRecOn generalizing s t with
  | ind k ih =>
    have hstep : ∀ {o}, step mode' scope' t = .ok o →
        StepFollows home start (step mode scope s) o := fun ho => step_follows h (moves_of_step ho)
    intro e he
    unfold run at he
    split at he
    · rename_i e' hs
      cases he
      rw [hs] at hstep
      unfold run at ht
      split at ht
      · cases ht
      · rename_i ho
        exact hstep ho
      · rename_i ho
        exact hstep ho
    · cases he
    · rename_i s' hs
      have hless := step_work_lt hs
      rw [hs] at hstep
      unfold run at ht
      split at ht
      · cases ht
      · rename_i ho
        cases hstep ho
      · rename_i t' ho
        cases hstep ho with | next h' => exact ih _ (hk ▸ hless) h' ht rfl e he

/-- In an accepted model no join condition, wherever it is expanded, fails for a circle. -/
theorem acyclic_condition (hcheck : m.check = .ok ()) (mode : Mode) (scope : Scope m)
    {path : JoinPath} {t : m.Member} (ht : tableAt scope.root path = .ok t) {j : Join}
    (hj : j ∈ t.1.joins) (hkind : j.kind ≠ .cross) :
    Acyclic (resolveTemplate mode scope path j.condition ("join:" ++ j.name)) := by
  obtain ⟨f, hf⟩ := Model.condition_of_check hcheck t hj hkind
  obtain ⟨⟨_, _⟩, hwalk', hf⟩ := bind_ok hf
  cases hwalk'
  obtain ⟨⟨u', hu'⟩, hread', hf⟩ := bind_ok hf
  refine (acyclic_walk _ _ _ _).bind fun ⟨u, r⟩ hwalk => ?_
  obtain ⟨rfl, rfl⟩ := (tableAt_eq_ok_iff.1 ht).unique (leads_of_walk hwalk)
  refine (acyclic_readTemplate _ _ _).bind fun v hread => ?_
  cases hu'.symm.trans v.2
  -- both stacks hold one frame, for the condition, which has no key
  refine acyclic_run (?_ : StateFollows t path _ _) hf
  refine ⟨.cons ?_ .nil, rfl, rfl⟩
  exact ⟨rfl, (List.append_nil path).symm, rfl, rfl, rfl, rfl, .none, fun _ => rfl⟩

end Expansion

end Rollup
