/-
How deep references go. The references of a column do not depend on the path it is reached by nor on
the values of its arguments. So when a column could be expanded once, no chain of references from it
is as long as the limit, wherever it is expanded; and a column whose chains are bounded never refers
to itself.
-/
import Rollup.Proofs.Expansion.Memory
import Rollup.Proofs.Expansion.References
import Rollup.Proofs.Expansion.Trial
import Mathlib.Logic.Relation

namespace Rollup

namespace Expansion

section

variable {m : Model}

/-! ## Bounded references -/

/-- Every chain of references from a column has fewer steps than the bound. -/
def Ref.Fits : Nat → Ref m → Prop
  | 0, _ => False
  | n + 1, r => ∀ s, r.Refers s → Fits n s

theorem Ref.Fits.exists_lt {n : Nat} {r s : Ref m} (h : r.Fits n)
    (hrefers : Relation.TransGen Ref.Refers r s) : ∃ k < n, s.Fits k := by
  have hstep : ∀ {n : Nat} {r s : Ref m}, r.Fits n → r.Refers s → ∃ k < n, s.Fits k := by
    intro n r s h hrefers
    cases n with
    | zero => exact h.elim
    | succ n => exact ⟨n, Nat.lt_succ_self n, h s hrefers⟩
  induction hrefers with
  | single hs => exact hstep h hs
  | tail _ hs ih =>
    obtain ⟨k, hk, hfits⟩ := ih
    obtain ⟨l, hl, hfits'⟩ := hstep hfits hs
    exact ⟨l, Nat.lt_trans hl hk, hfits'⟩

/-- Nothing refers to itself, however indirectly, where chains are bounded. -/
theorem Ref.Fits.irrefl {n : Nat} {r : Ref m} (h : r.Fits n) :
    ¬ Relation.TransGen Ref.Refers r r := by
  intro hrefers
  induction n using Nat.strongRecOn with
  | ind n ih =>
    obtain ⟨k, hk, hfits⟩ := h.exists_lt hrefers
    exact ih k hk hfits

/-! ## References from other places -/

/-- The same column reached by another path. -/
def Ref.moved (r : Ref m) (path : JoinPath) : Ref m :=
  { r with path }

theorem Ref.Uses.moved {r : Ref m} {u : Template} (h : r.Uses u) (path : JoinPath) :
    (r.moved path).Uses u := by
  cases h with
  | formula hread => exact .formula hread
  | grain hgrain htext hread => exact .grain hgrain htext hread

theorem Leads.moved {t u : m.Member} {path q : JoinPath} {joins : List String}
    (h : Leads t path joins u q) (start : JoinPath) : Leads t start joins u (start ++ joins) := by
  induction h generalizing start with
  | here =>
    rw [List.append_nil]
    exact .here
  | @along _ _ _ _ _ name _ _ hjoin htarget _ ih =>
    have hrest := ih (start ++ [name])
    rw [List.append_assoc, List.singleton_append] at hrest
    exact .along hjoin htarget hrest

theorem Opens.moved {t : m.Member} {path : JoinPath} {segment : Segment} {r : Ref m}
    (h : Opens t path segment r) (start : JoinPath) :
    ∃ q, Opens t start segment (r.moved q) := by
  cases h with
  | logical hjoins hcolumn => exact ⟨_, .logical (hjoins.moved start) hcolumn⟩
  | pinned hjoins hcolumn => exact ⟨_, .pinned (hjoins.moved start) hcolumn⟩

theorem Ref.Fits.moved {n : Nat} {r : Ref m} (h : r.Fits n) (path : JoinPath) :
    (r.moved path).Fits n := by
  induction n generalizing r path with
  | zero => exact h.elim
  | succ n ih =>
    rintro s ⟨u, huses, segment, hmem, hopens⟩
    obtain ⟨q, hopens'⟩ := hopens.moved r.path
    have hs : (s.moved q).Fits n := h _ ⟨u, huses.moved r.path, segment, hmem, hopens'⟩
    exact ih hs s.path

/-! ## Frames and references -/

/-- What a frame is still to read: the rest of its template, and the formula of its grain. -/
def Frame.Ahead (f : Frame m) (segment : Segment) : Prop :=
  segment ∈ f.rest ∨ ∃ c g text u, f.column = some c ∧ f.grain = some g ∧
    (c.1.grain? g).bind (·.formula) = some text ∧ Template.parse text = .ok u ∧ segment ∈ u

/-- The values of arguments that were checked. -/
def Checked (ps : List Parameter) (a : Arguments) : Prop :=
  ∀ e ∈ a.entries, ∃ p ∈ ps, p.name = e.1 ∧ p.check e.2 = .ok ()

/-- A frame expands a column: it stands in its place, is known by its key and reads nothing but its
templates. -/
structure Frame.Stands (f : Frame m) (r : Ref m) : Prop where
  table : f.table = r.table
  path : f.path = r.path
  column : f.column = some r.column
  key : ∃ a, Checked r.column.1.parameters a ∧
    f.key = some ⟨placeText r.table.1 r.path, r.column.1.name, a.signature r.grain⟩
  ahead : ∀ segment, Frame.Ahead f segment → ∃ u, r.Uses u ∧ segment ∈ u

/-- A frame that has read nothing yet. -/
structure Frame.Starts (f : Frame m) (r : Ref m) : Prop extends Frame.Stands f r where
  whole : ∀ u segment, r.Uses u → segment ∈ u → Frame.Ahead f segment

theorem checked_of_bindArguments {owner : String} {fixed passed a : Arguments}
    {ps : List Parameter} (h : bindArguments owner fixed passed ps = .ok a) : Checked ps a := by
  have hbound : ∀ e ∈ a.entries, e ∈ Arguments.empty.entries ∨
      ∃ p ∈ ps, p.name = e.1 ∧ p.check e.2 = .ok () := by
    unfold bindArguments at h
    generalize Arguments.empty = bound at h ⊢
    induction ps generalizing bound with
    | nil =>
      cases h
      exact fun e he => .inl he
    | cons p ps ih =>
      rw [List.foldlM_cons] at h
      obtain ⟨b, hb, h⟩ := bind_ok h
      intro e he
      rcases ih b h e he with he | ⟨q, hq, hvalue⟩
      · split at hb
        · cases hb
          exact .inl he
        · split at hb
          · rename_i hcheck
            cases hb
            rcases Arguments.mem_insertEntry he with rfl | he
            · exact .inr ⟨p, List.mem_cons_self, rfl, hcheck⟩
            · exact .inl he
          · cases hb
      · exact .inr ⟨q, List.mem_cons_of_mem _ hq, hvalue⟩
  exact fun e he => (hbound e he).resolve_left List.not_mem_nil

variable {mode : Mode} {scope : Scope m}

theorem starts_of_openColumn {t : m.Member} {path : JoinPath} {name reference : String}
    {fixed passed : Arguments} {asked : Option Grain} {f : Frame.Opened m}
    (h : openColumn t path name fixed passed asked reference = .ok f) :
    ∃ c, Model.Member.column? t name = some c ∧
      Frame.Starts f.1 ⟨t, path, c, c.1.grainAt fixed asked⟩ := by
  obtain ⟨c, arguments, grain, u, hcolumn, harguments, hgrain, hformula, hf⟩ := openColumn_eq h
  obtain rfl := grainAt_of_fixedGrain hgrain
  refine ⟨c, hcolumn, ?_⟩
  rw [hf]
  refine ⟨⟨rfl, rfl, rfl, ⟨arguments, checked_of_bindArguments harguments, rfl⟩, ?_⟩, ?_⟩
  · rintro segment (hmem | ⟨c', g, text, v, hc, hg, htext, hread, hmem⟩)
    · exact ⟨u, .formula hformula, hmem⟩
    · cases hc
      exact ⟨v, .grain hg htext hread, hmem⟩
  · intro v segment huses hmem
    cases huses with
    | formula hread =>
      cases hformula.symm.trans hread
      exact .inl hmem
    | grain hg htext hread => exact .inr ⟨c, _, _, v, rfl, hg, htext, hread, hmem⟩

/-- A segment opens the column it refers to. -/
theorem starts_of_action {f : Frame m} {segment : Segment} {path : JoinPath}
    {opened : Frame.Opened m} (h : segment.action mode scope f = .ok (path, .enter opened)) :
    ∃ r, Opens f.table f.path segment r ∧ Frame.Starts opened.1 r := by
  obtain ⟨joins, name, fixed, _, t, hleads, hopen, hsegment⟩ := action_enter_cases h
  obtain ⟨c, hcolumn, hstarts⟩ := starts_of_openColumn hopen
  rcases hsegment with ⟨rfl, rfl⟩ | rfl
  · rw [grainAt_empty] at hstarts
    exact ⟨_, .logical hleads hcolumn, hstarts⟩
  · exact ⟨_, .pinned hleads hcolumn, hstarts⟩

/-- A segment that is text opens no column. -/
theorem not_opens_of_text {f : Frame m} {segment : Segment} {path : JoinPath} {sql : String}
    (h : segment.action mode scope f = .ok (path, .text sql)) (t : m.Member) (start : JoinPath)
    (r : Ref m) : ¬ Opens t start segment r := by
  rintro (_ | _) <;>
  · obtain ⟨_, -, h⟩ := bind_ok h
    obtain ⟨_, -, h⟩ := bind_ok h
    cases h

/-- A frame that has read a segment. -/
theorem Frame.Stands.advance {f : Frame m} {r : Ref m} (h : Frame.Stands f r) {segment : Segment}
    {rest : Template} (hrest : f.rest = segment :: rest) (out : String) :
    Frame.Stands { f with rest, out } r := by
  refine { h with ahead := ?_ }
  rintro segment' (hmem | hgrain)
  · exact h.ahead segment' (.inl (hrest ▸ List.mem_cons_of_mem _ hmem))
  · exact h.ahead segment' (.inr hgrain)

/-- A frame that goes over to the formula of its grain. -/
theorem Frame.Stands.regrain {f : Frame m} {r : Ref m} (h : Frame.Stands f r) {g : Grain}
    (hgrain : f.grain = some g) {opened : Frame.Opened m}
    (hopened : f.applyGrain mode g = .ok (.enter opened)) : Frame.Stands opened.1 r := by
  obtain ⟨c, text, u, hcolumn, htext, hread, hframe⟩ := applyGrain_enter_cases hopened
  rw [hframe]
  refine { h with ahead := ?_ }
  rintro segment (hmem | ⟨_, _, _, _, -, hnone, -⟩)
  · exact h.ahead segment (.inr ⟨c, g, text, u, hcolumn, hgrain, htext, hread, hmem⟩)
  · cases hnone

/-! ## What an expansion shows of references -/

/-- What a frame is still to open fits a bound. -/
def Frame.Fits (n : Nat) (f : Frame m) : Prop :=
  ∀ segment, Frame.Ahead f segment → ∀ r, Opens f.table f.path segment r → r.Fits n

/-- What each frame of a stack is still to open fits the room that is left above it. -/
def StackFits : List (Frame m) → Prop
  | [] => True
  | f :: below => Frame.Fits (m.maxDepth - (below.length + 1)) f ∧ StackFits below

theorem Frame.Starts.fits {f : Frame m} {r : Ref m} {n : Nat} (h : Frame.Starts f r) (hf : Frame.Fits n f) :
    r.Fits (n + 1) := by
  rintro s ⟨u, huses, segment, hmem, hopens⟩
  refine hf segment (h.whole u segment huses hmem) s ?_
  rwa [h.table, h.path]

/-- What a step leads to fits. -/
def Outcome.StackFits (o : Outcome m) : Prop :=
  match o with
  | .next s => Expansion.StackFits (s.top :: s.below)
  | .done _ => True

theorem fits_of_finish {s : State m} {sql : String} (htop : ∀ segment, ¬ Frame.Ahead s.top segment)
    (h : Outcome.StackFits (s.finish sql)) : StackFits (s.top :: s.below) := by
  refine ⟨fun segment hahead => (htop segment hahead).elim, ?_⟩
  unfold State.finish at h
  split at h
  · rename_i hbelow
    rw [hbelow]
    trivial
  · rename_i parent below hbelow
    rw [hbelow]
    exact h

theorem room_of_checkEnter {s : State m} {f : Frame m} (h : s.checkEnter f = .ok ()) :
    s.below.length + 1 < m.maxDepth := by
  unfold State.checkEnter at h
  split at h
  · cases h
  · split at h
    · cases h
    · omega

/-- A stack fits when what it goes on to does. -/
theorem fits_of_moves {s : State m} {o : Outcome m} (h : Moves mode scope s o)
    (ho : Outcome.StackFits o) : StackFits (s.top :: s.below) := by
  cases h with
  | @text segment rest path sql hrest haction =>
    obtain ⟨htop, hbelow⟩ := ho
    refine ⟨?_, hbelow⟩
    rintro segment' (hmem | hgrain) r hopens
    · rw [hrest] at hmem
      rcases List.mem_cons.1 hmem with rfl | hmem
      · exact (not_opens_of_text haction _ _ _ hopens).elim
      · exact htop segment' (.inl hmem) r hopens
    · exact htop segment' (.inr hgrain) r hopens
  | @enter segment rest path opened hrest haction hcheck =>
    obtain ⟨hopened, htop, hbelow⟩ := ho
    refine ⟨?_, hbelow⟩
    rintro segment' (hmem | hgrain) r hopens
    · rw [hrest] at hmem
      rcases List.mem_cons.1 hmem with rfl | hmem
      · obtain ⟨r', hopens', hstarts⟩ := starts_of_action haction
        obtain rfl := hopens.unique hopens'
        -- the opened frame stands one higher
        have hfits : r.Fits (m.maxDepth - (s.below.length + 1 + 1) + 1) := hstarts.fits hopened
        have hroom := room_of_checkEnter hcheck
        rwa [show m.maxDepth - (s.below.length + 1 + 1) + 1 =
          m.maxDepth - (s.below.length + 1) by omega] at hfits
      · exact htop segment' (.inl hmem) r hopens
    · exact htop segment' (.inr hgrain) r hopens
  | finish hrest hgrain =>
    refine fits_of_finish ?_ ho
    rintro segment (hmem | ⟨_, _, _, _, -, hsome, -⟩)
    · rw [hrest] at hmem
      cases hmem
    · rw [hgrain] at hsome
      cases hsome
  | truncate hrest hgrain hsql =>
    refine fits_of_finish ?_ ho
    rintro segment (hmem | ⟨c, g, text, u, hcolumn, hsome, htext, -⟩)
    · rw [hrest] at hmem
      cases hmem
    · cases hgrain.symm.trans hsome
      rcases applyGrain_ok hsql with ⟨hnone, -⟩ | ⟨c', hcolumn', ⟨hnone, -⟩ |
          ⟨_, _, _, -, -, haction, -⟩⟩
      · cases hnone.symm.trans hcolumn
      · cases hcolumn'.symm.trans hcolumn
        cases hnone.symm.trans htext
      · cases haction
  | @regrain g opened hrest hgrain hopened =>
    obtain ⟨htop, hbelow⟩ := ho
    refine ⟨?_, hbelow⟩
    obtain ⟨c, text, u, hcolumn, htext, hread, hframe⟩ := applyGrain_enter_cases hopened
    rintro segment (hmem | ⟨c', g', text', u', hcolumn', hsome, htext', hread', hmem⟩) r hopens
    · rw [hrest] at hmem
      cases hmem
    · cases hcolumn'.symm.trans hcolumn
      cases hsome.symm.trans hgrain
      cases htext'.symm.trans htext
      cases hread'.symm.trans hread
      rw [hframe] at htop
      exact htop segment (.inl hmem) r hopens

/-- Where a run comes to its end, what its start was still to open fits. -/
theorem fits_of_run {s : State m} {f : Fragment} (h : run mode scope s = .ok f) :
    StackFits (s.top :: s.below) := by
  induction hk : s.work using Nat.strongRecOn generalizing s with
  | ind k ih =>
    unfold run at h
    split at h
    · cases h
    · rename_i g hstep
      exact fits_of_moves (moves_of_step hstep) trivial
    · rename_i s' hstep
      have hless := step_work_lt hstep
      rw [hk] at hless
      exact fits_of_moves (moves_of_step hstep) (ih _ hless h rfl)

theorem fits_of_expandColumn {path : JoinPath} {column : String} {arguments : Arguments}
    {grain : Option Grain} {f : Fragment}
    (h : expandColumn mode scope path column arguments grain = .ok f) :
    ∃ t c, Leads scope.root [] path t path ∧ Model.Member.column? t column = some c ∧
      Ref.Fits (m.maxDepth - 1 + 1) ⟨t, path, c, grain⟩ := by
  obtain ⟨⟨t, reached⟩, hwalk, hopened⟩ := bind_ok h
  obtain ⟨opened, hopen, hrun⟩ := bind_ok hopened
  have hleads := leads_of_walk hwalk
  obtain rfl : reached = path := by rw [hleads.path_eq, List.nil_append]
  obtain ⟨c, hcolumn, hstarts⟩ := starts_of_openColumn hopen
  obtain ⟨hfits, -⟩ := fits_of_run hrun
  rw [grainAt_empty] at hstarts
  exact ⟨t, c, hleads, hcolumn, hstarts.fits hfits⟩

/-! ## Accepted models -/

/-- A column of a table of the model. -/
def Ref.InTable (r : Ref m) : Prop :=
  ∃ name, Model.Member.column? r.table name = some r.column

theorem name_of_column? {t : m.Member} {name : String} {c : m.AnyColumn}
    (h : Model.Member.column? t name = some c) : c.1 ∈ t.1.columns ∧ c.1.name = name := by
  unfold Model.Member.column? at h
  split at h
  · rename_i c' hc'
    cases h
    exact ⟨List.mem_of_find?_eq_some hc', by simpa using List.find?_some hc'⟩
  · cases h

/-- Where the grain has no formula it refers to nothing that the column itself does not refer to. -/
theorem Ref.Fits.of_formula {n : Nat} {t : m.Member} {path : JoinPath} {c : m.AnyColumn}
    {grain : Option Grain} (h : Ref.Fits n ⟨t, path, c, none⟩)
    (hgrain : ∀ g, grain = some g → (c.1.grain? g).bind (·.formula) = none) :
    Ref.Fits n ⟨t, path, c, grain⟩ := by
  cases n with
  | zero => exact h.elim
  | succ n =>
    rintro s ⟨u, huses, hopens⟩
    cases huses with
    | formula hread => exact h s ⟨u, .formula hread, hopens⟩
    | grain hg htext _ => cases (hgrain _ hg).symm.trans htext

/-- In an accepted model a column was tried out at every grain that has a formula, and at the others
without one. -/
theorem tried_of_check (h : m.check = .ok ()) {r : Ref m} (hr : r.InTable) :
    ∃ grain f, expandColumn Model.trial (Scope.of r.table .empty) [] r.column.1.name .empty grain =
        .ok f ∧
      (grain = r.grain ∨ grain = none ∧
        ∀ g, r.grain = some g → (r.column.1.grain? g).bind (·.formula) = none) := by
  obtain ⟨t, path, c, grain⟩ := r
  obtain ⟨name, hcolumn⟩ := hr
  obtain ⟨hmem, -⟩ := name_of_column? hcolumn
  obtain ⟨⟨f, hf⟩, hgrains⟩ := Model.columns_of_check h t c.1 hmem
  cases grain with
  | none => exact ⟨none, f, hf, .inl rfl⟩
  | some g =>
    cases htext : (c.1.grain? g).bind (·.formula) with
    | none => exact ⟨none, f, hf, .inr ⟨rfl, fun g' hg => by cases hg; exact htext⟩⟩
    | some text =>
      obtain ⟨d, hd, hformula⟩ := Option.bind_eq_some_iff.1 htext
      obtain ⟨f', hf'⟩ := hgrains d (List.mem_of_find?_eq_some hd) (by rw [hformula]; rfl)
      rw [show d.grain = g by simpa using List.find?_some hd] at hf'
      exact ⟨some g, f', hf', .inl rfl⟩

/-- In an accepted model no chain of references is longer than the limit, at whatever grain. -/
theorem fits_of_check (h : m.check = .ok ()) {r : Ref m} (hr : r.InTable) :
    r.Fits (m.maxDepth - 1 + 1) := by
  obtain ⟨grain, f, hf, hgrain⟩ := tried_of_check h hr
  obtain ⟨t, path, c, asked⟩ := r
  obtain ⟨name, hcolumn⟩ := hr
  obtain ⟨-, rfl⟩ := name_of_column? hcolumn
  obtain ⟨t', c', hleads, hcolumn', hfits⟩ := fits_of_expandColumn hf
  cases hleads
  cases hcolumn.symm.trans hcolumn'
  rcases hgrain with rfl | ⟨rfl, hnone⟩
  · exact hfits.moved path
  · exact Ref.Fits.of_formula (hfits.moved path) hnone

end

end Expansion

end Rollup
