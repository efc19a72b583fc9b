/-
The stack of frames computes what formulas stand for by plain recursion. A frame stands for what is
left of its template behind the text it has come to, the frames below for what they come to when
they are handed that text. Every step leaves what a state stands for as it was, and at the end it is
the fragment itself; the joins recorded are the starts of the paths walked.
-/
import Rollup.Proofs.Expansion.Meaning
import Rollup.Proofs.Outcome

namespace Rollup

namespace JoinPath

theorem mem_starts {p q : JoinPath} : q ∈ starts p ↔ q ≠ [] ∧ q <+: p := by
  induction p generalizing q with
  | nil =>
    simp only [starts, List.not_mem_nil, List.prefix_nil, false_iff, not_and]
    exact fun hne h => hne h
  | cons name rest ih =>
    simp only [starts, List.mem_cons, List.mem_map, List.prefix_cons_iff]
    constructor
    · rintro (rfl | ⟨r, hr, rfl⟩)
      · exact ⟨List.cons_ne_nil _ _, .inr ⟨[], rfl, List.nil_prefix⟩⟩
      · exact ⟨List.cons_ne_nil _ _, .inr ⟨r, rfl, (ih.1 hr).2⟩⟩
    · rintro ⟨hne, rfl | ⟨r, rfl, hr⟩⟩
      · exact (hne rfl).elim
      · cases r with
        | nil => exact .inl rfl
        | cons next r => exact .inr ⟨_, ih.2 ⟨List.cons_ne_nil _ _, hr⟩, rfl⟩

/-- Some paths have a start in common with what is recorded: one of them starts with it. -/
def Covered (ps : List JoinPath) (q : JoinPath) : Prop :=
  ∃ p ∈ ps, q ∈ starts p

theorem covered_nil (q : JoinPath) : ¬ Covered [] q := by
  rintro ⟨p, hp, -⟩
  cases hp

theorem covered_append {ps qs : List JoinPath} {q : JoinPath} :
    Covered (ps ++ qs) q ↔ Covered ps q ∨ Covered qs q := by
  simp only [Covered, List.mem_append, or_and_right, exists_or]

theorem covered_singleton {p q : JoinPath} : Covered [p] q ↔ q ∈ starts p := by
  simp only [Covered, List.mem_singleton, exists_eq_left]

theorem covered_cons {p q : JoinPath} {ps : List JoinPath} :
    Covered (p :: ps) q ↔ q ∈ starts p ∨ Covered ps q := by
  rw [← List.singleton_append, covered_append, covered_singleton]

/-- What a template that starts at the end of a path reads through. -/
theorem mem_record_or_covered {path q : JoinPath} {ps : List JoinPath} :
    q ∈ path.record [] ∨ Covered ps q ↔ q ≠ [] ∧ ∃ p ∈ path :: ps, q <+: p := by
  simp only [mem_record, List.not_mem_nil, false_or, Covered, mem_starts, List.mem_cons,
    exists_eq_or_imp]
  constructor
  · rintro (⟨hne, hq⟩ | ⟨p, hp, hne, hq⟩)
    · exact ⟨hne, .inl hq⟩
    · exact ⟨hne, .inr ⟨p, hp, hq⟩⟩
  · rintro ⟨hne, hq | ⟨p, hp, hq⟩⟩
    · exact .inl ⟨hne, hq⟩
    · exact .inr ⟨p, hp, hne, hq⟩

end JoinPath

namespace Expansion

section

variable {m : Model} {mode : Mode} {scope : Scope m}

/-! ## Following joins -/

theorem Leads.path_eq {t u : m.Member} {path q : JoinPath} {joins : List String}
    (h : Leads t path joins u q) : q = path ++ joins := by
  induction h with
  | here => rw [List.append_nil]
  | along _ _ _ ih => rw [ih, List.append_assoc, List.singleton_append]

theorem leads_of_walk {reference : String} {t u : m.Member} {path q : JoinPath}
    {joins : List String} (h : walk reference t path joins = .ok (u, q)) :
    Leads t path joins u q := by
  induction joins generalizing t path with
  | nil =>
    cases h
    exact .here
  | cons name rest ih =>
    unfold walk at h
    split at h
    · cases h
    · rename_i j hj
      split at h
      · cases h
      · rename_i v hv
        exact .along hj hv (ih h)

theorem walk_of_leads {t u : m.Member} {path q : JoinPath} {joins : List String}
    (h : Leads t path joins u q) (reference : String) :
    walk reference t path joins = .ok (u, q) := by
  induction h with
  | here => rfl
  | along hjoin htarget _ ih =>
    simp only [walk, hjoin, htarget]
    exact ih

theorem tableAt_eq_ok_iff {root t : m.Member} {path : JoinPath} :
    tableAt root path = .ok t ↔ Leads root [] path t path := by
  constructor
  · intro h
    obtain ⟨⟨t, q⟩, hwalk, rfl⟩ := map_ok h
    have hleads := leads_of_walk hwalk
    rwa [hleads.path_eq] at hleads
  · intro h
    rw [tableAt, walk_of_leads h]
    rfl

/-! ## Opening a column -/

theorem lastDefault_cons (p : Parameter) (ps : List Parameter) :
    lastDefault (p :: ps) p.name = (lastDefault ps p.name).or p.default := by
  unfold lastDefault
  rw [List.filter_cons_of_pos (p := fun q : Parameter => q.name == p.name)
    (beq_self_eq_true p.name), List.filterMap_cons]
  cases p.default with
  | none => rw [Option.or_none]
  | some v =>
    rw [List.getLast?_cons]
    cases ((ps.filter (·.name == p.name)).filterMap (·.default)).getLast? <;> rfl

theorem lastDefault_of_undeclared {ps : List Parameter} {name : String}
    (h : ps.find? (·.name == name) = none) : lastDefault ps name = none := by
  rw [lastDefault, List.filter_eq_nil_iff.2 (List.find?_eq_none.1 h)]
  rfl

/-- The first declaration gives way to those after it. -/
theorem lateBound_cons (fixed passed : Arguments) (p : Parameter) (ps : List Parameter)
    (name : String) : lateBound fixed passed (p :: ps) name =
      (lateBound fixed passed ps name).or (if name = p.name then
        (fixed.get? name).or ((passed.get? name).or p.default) else none) := by
  unfold lateBound
  by_cases hname : name = p.name
  · subst hname
    rw [List.find?_cons_of_pos (p := fun q : Parameter => q.name == p.name)
      (beq_self_eq_true p.name), if_pos Option.isSome_some, if_pos rfl, lastDefault_cons]
    cases hps : ps.find? (·.name == p.name) with
    | none => rw [lastDefault_of_undeclared hps]; rfl
    | some q =>
      rw [if_pos Option.isSome_some]
      cases fixed.get? p.name <;> cases passed.get? p.name <;> rfl
  · have hne : ¬ (p.name == name) = true := fun h => hname (eq_of_beq h).symm
    rw [List.find?_cons_of_neg (p := fun q : Parameter => q.name == name) hne, if_neg hname,
      Option.or_none, lastDefault, lastDefault,
      List.filter_cons_of_neg (p := fun q : Parameter => q.name == name) hne]

theorem bindArguments_ok {owner : String} {fixed passed a : Arguments} {ps : List Parameter}
    (h : bindArguments owner fixed passed ps = .ok a) (name : String) :
    a.get? name = lateBound fixed passed ps name := by
  have hbound : a.get? name = (lateBound fixed passed ps name).or (Arguments.empty.get? name) := by
    unfold bindArguments at h
    generalize Arguments.empty = bound at h ⊢
    induction ps generalizing bound with
    | nil =>
      cases h
      rfl
    | cons p ps ih =>
      rw [List.foldlM_cons] at h
      obtain ⟨b, hb, h⟩ := bind_ok h
      -- what the first declaration binds stands behind what the others bind
      have hfirst : b.get? name = (if name = p.name then
          (fixed.get? name).or ((passed.get? name).or p.default) else none).or
            (bound.get? name) := by
        rw [Option.orElse_eq_or, Option.orElse_eq_or] at hb
        split at hb
        · rename_i hvalue
          cases hb
          split
          · rename_i hname
            rw [hname, hvalue, Option.none_or]
          · rfl
        · rename_i v hvalue
          split at hb
          · cases hb
            rw [Arguments.get?_insert]
            split
            · rename_i hname
              rw [hname, hvalue, Option.some_or]
            · rw [Option.none_or]
          · cases hb
      rw [ih b h, lateBound_cons, Option.or_assoc, hfirst]
  rwa [show Arguments.empty.get? name = none from rfl, Option.or_none] at hbound

/-- Only the name `grain` can fix a grain, and no name stands twice. -/
theorem fixedGrain_ok {owner : String} {c : Column} {asked grain : Option Grain}
    {es : List (String × String)} (hes : es.Pairwise fun a b => a.1 < b.1)
    (h : fixedGrain owner c asked es = .ok grain) :
    grain = if (c.parameter? "grain").isSome then asked
      else match es.lookup "grain" with
        | some value => (Grain.parse value).toOption
        | none => asked := by
  induction es generalizing asked with
  | nil =>
    cases h
    split <;> rfl
  | cons e rest ih =>
    obtain ⟨name, value⟩ := e
    obtain ⟨hname, hrest⟩ := List.pairwise_cons.1 hes
    unfold fixedGrain at h
    rw [Arguments.lookup_cons_eq]
    split at h
    · rename_i hdeclared
      rw [ih hrest h]
      split
      · rfl
      · rename_i hgrain
        have hne : "grain" ≠ name := fun heq => hgrain (heq ▸ hdeclared)
        rw [if_neg hne]
    · rename_i hdeclared
      split at h
      · rename_i hgrain
        rw [Bool.and_eq_true, beq_iff_eq] at hgrain
        obtain ⟨rfl, -⟩ := hgrain
        split at h
        · rename_i g hg
          rw [ih hrest h, if_neg hdeclared, if_neg hdeclared, if_pos rfl,
            Arguments.lookup_eq_none_of_lt hname]
          dsimp only
          rw [hg]
          rfl
        · cases h
      · cases h

theorem grainAt_of_fixedGrain {owner : String} {c : Column} {fixed : Arguments}
    {asked grain : Option Grain} (h : fixedGrain owner c asked fixed.entries = .ok grain) :
    grain = c.grainAt fixed asked :=
  fixedGrain_ok fixed.ordered h

/-! ## Frames -/

/-- Where a frame reads its template. -/
def Frame.site (f : Frame m) : Site m :=
  ⟨f.table, f.path, f.column, f.arguments, f.base⟩

variable (mode scope) in
/-- What a frame comes to, and the paths walked until then: what is left of its template behind what
there is, at its grain. -/
def Frame.Completes (f : Frame m) (sql : String) (walked : List JoinPath) : Prop :=
  ∃ out ps qs, Denotes mode scope (Frame.site f) f.rest out ps ∧
    Grained mode scope (Frame.site f) f.grain (f.out ++ out) sql qs ∧ walked = ps ++ qs

/-- The frame of a column that is opened. -/
theorem openColumn_eq {t : m.Member} {path : JoinPath} {name reference : String}
    {fixed passed : Arguments} {asked : Option Grain} {f : Frame.Opened m}
    (h : openColumn t path name fixed passed asked reference = .ok f) :
    ∃ c arguments grain u, Model.Member.column? t name = some c ∧
      bindArguments (t.1.name ++ "." ++ c.1.name) fixed passed c.1.parameters = .ok arguments ∧
      fixedGrain (t.1.name ++ "." ++ c.1.name) c.1 asked fixed.entries = .ok grain ∧
      Template.parse c.1.formula = .ok u ∧ f.1 = {
        table := t, path, column := some c, arguments, rest := u, grain
        key := some ⟨placeText t.1 path, c.1.name, arguments.signature grain⟩
        label := placeText t.1 path ++ "." ++ c.1.name } := by
  unfold openColumn at h
  split at h
  rotate_left
  · cases h
  rename_i c hcolumn
  obtain ⟨arguments, harguments, h⟩ := bind_ok h
  obtain ⟨grain, hgrain, h⟩ := bind_ok h
  cases grain with
  | none =>
    obtain ⟨u, -, h⟩ := bind_ok h
    cases h
    exact ⟨c, arguments, none, u.1, hcolumn, harguments, hgrain, u.2, rfl⟩
  | some g =>
    dsimp only at h
    split at h
    · cases h
    · obtain ⟨u, -, h⟩ := bind_ok h
      cases h
      exact ⟨c, arguments, some g, u.1, hcolumn, harguments, hgrain, u.2, rfl⟩

variable (mode scope) in
/-- A column that is opened stands for what the column does. -/
theorem openColumn_ok {t : m.Member} {path : JoinPath} {name reference : String}
    {fixed passed : Arguments} {asked : Option Grain} {f : Frame.Opened m}
    (h : openColumn t path name fixed passed asked reference = .ok f) :
    f.1.path = path ∧ ∀ sql walked, Frame.Completes mode scope f.1 sql walked →
      Expands mode scope t path name fixed passed asked sql walked := by
  obtain ⟨c, arguments, grain, u, hcolumn, harguments, hgrain, hformula, hf⟩ := openColumn_eq h
  rw [hf]
  refine ⟨rfl, ?_⟩
  rintro sql walked ⟨out, ps, qs, hbase, hsql, rfl⟩
  refine .column hcolumn (bindArguments_ok harguments) hformula hbase ?_
  rw [← grainAt_of_fixedGrain hgrain]
  rwa [String.empty_append] at hsql

/-! ## Segments -/

theorem tableArgument?_of_tableValue {f : Frame m} {context name value : String}
    (h : tableValue mode scope f context name = .ok value) :
    (Frame.site f).tableArgument? mode scope name = some value := by
  have hout : ∀ declared : Option Parameter, ∀ found : Option String,
      (match found with
        | some v => .ok (argumentLiteral mode.dialect declared v)
        | none => if mode.lenient then .ok name
          else .error (.unresolvable f.table.1.name (context ++ "." ++ name)
            (.noArgumentValue f.label)) : Except CompileError String) = .ok value →
      (match found with
        | some v => some (argumentLiteral mode.dialect declared v)
        | none => if mode.lenient then some name else none) = some value := by
    intro declared found hfound
    cases found with
    | some v =>
      cases hfound
      rfl
    | none =>
      dsimp only at hfound ⊢
      split at hfound
      · rename_i hlenient
        cases hfound
        exact if_pos hlenient
      · cases hfound
  unfold tableValue at h
  unfold Site.tableArgument? Frame.site
  cases hpath : f.path with
  | nil =>
    rw [hpath] at h
    exact hout _ _ h
  | cons first rest =>
    rw [hpath] at h
    exact hout _ _ h

/-- A segment that is text stands for this text, and records the path that is walked for it. -/
theorem action_text {f : Frame m} {segment : Segment} {path : JoinPath} {sql : String}
    (h : segment.action mode scope f = .ok (path, .text sql)) :
    ∃ ws, (∀ q, JoinPath.Covered ws q ↔ q ∈ path.starts) ∧ ∀ {rest out ps},
      Denotes mode scope (Frame.site f) rest out ps →
      Denotes mode scope (Frame.site f) (segment :: rest) (sql ++ out) (ws ++ ps) := by
  have hnone : ∀ q, JoinPath.Covered [] q ↔ q ∈ JoinPath.starts [] := fun q =>
    iff_of_false (JoinPath.covered_nil q) List.not_mem_nil
  cases segment with
  | literal text =>
    cases h
    exact ⟨[], hnone, fun hrest => .literal hrest⟩
  | reference joins target =>
    cases target with
    | physical name =>
      obtain ⟨⟨t, q⟩, hwalk, h⟩ := bind_ok h
      cases h
      exact ⟨[path], fun q => JoinPath.covered_singleton,
        fun hrest => .physical (leads_of_walk hwalk) hrest⟩
    | logical name =>
      obtain ⟨⟨t, q⟩, -, h⟩ := bind_ok h
      obtain ⟨opened, -, h⟩ := bind_ok h
      cases h
  | pinned joins name values =>
    obtain ⟨⟨t, q⟩, -, h⟩ := bind_ok h
    obtain ⟨opened, -, h⟩ := bind_ok h
    cases h
  | columnArgument name =>
    refine ⟨[], ?_⟩
    simp only [Segment.action] at h
    split at h
    · rename_i value hvalue
      cases h
      refine ⟨hnone, fun hrest => .columnArgument ?_ hrest⟩
      unfold Site.argument?
      rw [show (Frame.site f).arguments = f.arguments from rfl, hvalue]
      rfl
    · rename_i hvalue
      obtain ⟨value, htable, heq⟩ := map_ok h
      cases heq
      refine ⟨hnone, fun hrest => .columnArgument ?_ hrest⟩
      unfold Site.argument?
      rw [show (Frame.site f).arguments = f.arguments from rfl, hvalue]
      exact tableArgument?_of_tableValue htable
  | tableArgument name =>
    obtain ⟨value, htable, heq⟩ := map_ok h
    cases heq
    exact ⟨[], hnone, fun hrest => .tableArgument (tableArgument?_of_tableValue htable) hrest⟩
  | columnBase =>
    simp only [Segment.action] at h
    split at h
    · rename_i base hbase
      cases h
      exact ⟨[], hnone, fun hrest => .columnBase hbase hrest⟩
    · cases h

/-- The segments that open a column: a reference to it, and one that fixes some of its arguments. -/
theorem action_enter_cases {f : Frame m} {segment : Segment} {path : JoinPath}
    {opened : Frame.Opened m} (h : segment.action mode scope f = .ok (path, .enter opened)) :
    ∃ joins name fixed reference t, Leads f.table f.path joins t path ∧
      openColumn t path name fixed f.arguments none reference = .ok opened ∧
      ((segment = .reference joins (.logical name) ∧ fixed = .empty) ∨
        segment = .pinned joins name fixed) := by
  cases segment with
  | literal text => cases h
  | reference joins target =>
    cases target with
    | physical name =>
      obtain ⟨⟨t, q⟩, -, h⟩ := bind_ok h
      cases h
    | logical name =>
      obtain ⟨⟨t, q⟩, hwalk, h⟩ := bind_ok h
      obtain ⟨g, hopen, h⟩ := bind_ok h
      cases h
      exact ⟨joins, name, .empty, _, t, leads_of_walk hwalk, hopen, .inl ⟨rfl, rfl⟩⟩
  | pinned joins name values =>
    obtain ⟨⟨t, q⟩, hwalk, h⟩ := bind_ok h
    obtain ⟨g, hopen, h⟩ := bind_ok h
    cases h
    exact ⟨joins, name, values, _, t, leads_of_walk hwalk, hopen, .inr rfl⟩
  | columnArgument name =>
    simp only [Segment.action] at h
    split at h
    · cases h
    · obtain ⟨value, -, heq⟩ := map_ok h
      cases heq
  | tableArgument name =>
    obtain ⟨value, -, heq⟩ := map_ok h
    cases heq
  | columnBase =>
    simp only [Segment.action] at h
    split at h <;> cases h

/-- A segment that opens a column stands for what the column comes to. -/
theorem action_enter {f : Frame m} {segment : Segment} {path : JoinPath} {opened : Frame.Opened m}
    (h : segment.action mode scope f = .ok (path, .enter opened)) {sql : String}
    {walked : List JoinPath} (hopened : Frame.Completes mode scope opened.1 sql walked)
    {rest : Template} {out : String} {ps : List JoinPath}
    (hrest : Denotes mode scope (Frame.site f) rest out ps) :
    Denotes mode scope (Frame.site f) (segment :: rest) (sql ++ out) (path :: (walked ++ ps)) := by
  obtain ⟨joins, name, fixed, _, t, hleads, hopen, hsegment⟩ := action_enter_cases h
  obtain ⟨-, hcolumn⟩ := openColumn_ok mode scope hopen
  rcases hsegment with ⟨rfl, rfl⟩ | rfl
  · exact .logical hleads (hcolumn sql walked hopened) hrest
  · exact .pinned hleads (hcolumn sql walked hopened) hrest

/-! ## Grains -/

/-- How a grain is applied: not at all where there is no column, by the dialect where the grain has
no formula, and else by that formula. -/
theorem applyGrain_ok {f : Frame m} {g : Grain} {action : Action m}
    (h : f.applyGrain mode g = .ok action) :
    (f.column = none ∧ action = .text f.out) ∨ ∃ c, f.column = some c ∧
      (((c.1.grain? g).bind (·.formula) = none ∧
        ∃ sql, action = .text sql ∧ Sql.truncate? mode.dialect g f.out = some sql) ∨
      ∃ formula u opened, (c.1.grain? g).bind (·.formula) = some formula ∧
        Template.parse formula = .ok u ∧ action = .enter opened ∧ opened.1 = f.atGrain g u) := by
  have htruncated : ∀ {c : Column}, Frame.applyGrain.truncated mode f g c = .ok action →
      ∃ sql, action = .text sql ∧ Sql.truncate? mode.dialect g f.out = some sql := by
    intro c h
    unfold Frame.applyGrain.truncated at h
    split at h
    · rename_i sql hsql
      cases h
      exact ⟨sql, rfl, hsql⟩
    · cases h
  unfold Frame.applyGrain at h
  split at h
  · rename_i hcolumn
    cases h
    exact .inl ⟨hcolumn, rfl⟩
  · rename_i c hcolumn
    refine .inr ⟨c, hcolumn, ?_⟩
    split at h
    · rename_i d hd
      split at h
      · rename_i formula hformula
        obtain ⟨u, -, h⟩ := bind_ok h
        cases h
        exact .inr ⟨formula, u.1, _, by rw [hd]; exact hformula, u.2, rfl, rfl⟩
      · rename_i hformula
        exact .inl ⟨by rw [hd]; exact hformula, htruncated h⟩
    · rename_i hd
      exact .inl ⟨by rw [hd]; rfl, htruncated h⟩

/-- Where a grain has a formula, the frame gives way to one that reads it. -/
theorem applyGrain_enter_cases {f : Frame m} {g : Grain} {opened : Frame.Opened m}
    (h : f.applyGrain mode g = .ok (.enter opened)) :
    ∃ c formula u, f.column = some c ∧ (c.1.grain? g).bind (·.formula) = some formula ∧
      Template.parse formula = .ok u ∧ opened.1 = f.atGrain g u := by
  rcases applyGrain_ok h with ⟨-, haction⟩ | ⟨c, hcolumn, ⟨-, _, haction, -⟩ |
    ⟨formula, u, _, hformula, hread, haction, hframe⟩⟩
  · cases haction
  · cases haction
  · cases haction
    exact ⟨c, formula, u, hcolumn, hformula, hread, hframe⟩

/-- A finished frame that becomes text at its grain. -/
theorem grained_of_applyGrain {f : Frame m} {g : Grain} {sql : String}
    (h : f.applyGrain mode g = .ok (.text sql)) :
    Grained mode scope (Frame.site f) (some g) f.out sql [] := by
  rcases applyGrain_ok h with ⟨hcolumn, haction⟩ | ⟨c, hcolumn, ⟨hformula, _, haction, hsql⟩ |
    ⟨_, _, _, _, _, haction, _⟩⟩
  · cases haction
    exact .unnamed hcolumn
  · cases haction
    exact .truncated hcolumn hformula hsql
  · cases haction

/-- A finished frame that gives way to the frame of its grain's formula. -/
theorem grained_of_opened {f : Frame m} {g : Grain} {opened : Frame.Opened m}
    (h : f.applyGrain mode g = .ok (.enter opened)) {sql : String} {walked : List JoinPath}
    (hopened : Frame.Completes mode scope opened.1 sql walked) :
    Grained mode scope (Frame.site f) (some g) f.out sql walked := by
  obtain ⟨c, formula, u, hcolumn, hformula, hread, hframe⟩ := applyGrain_enter_cases h
  rw [hframe] at hopened
  obtain ⟨out, ps, qs, hout, hsql, rfl⟩ := hopened
  -- the grain's formula has no grain of its own
  cases hsql with
  | none =>
    rw [List.append_nil, show (f.atGrain g u).out = "" from rfl, String.empty_append]
    exact .formula hcolumn hformula hread hout
  | unnamed hnone => exact absurd (hcolumn.symm.trans hnone) (Option.some_ne_none c)

/-! ## Steps -/

variable (mode scope) in
/-- What a step does when it succeeds. -/
inductive Moves (s : State m) : Outcome m → Prop
  | text {segment rest path sql} (hrest : s.top.rest = segment :: rest)
    (haction : segment.action mode scope s.top = .ok (path, .text sql)) :
    Moves s (.next { s with
      top := { s.top with rest, out := s.top.out ++ sql }, joins := path.record s.joins })
  | enter {segment rest path} {opened : Frame.Opened m} (hrest : s.top.rest = segment :: rest)
    (haction : segment.action mode scope s.top = .ok (path, .enter opened))
    (hcheck : s.checkEnter opened.1 = .ok ()) :
    Moves s (.next ⟨opened.1, { s.top with rest } :: s.below,
      opened.1.key.toList ++ s.inProgress, path.record s.joins⟩)
  | finish (hrest : s.top.rest = []) (hgrain : s.top.grain = none) : Moves s (s.finish s.top.out)
  | truncate {g sql} (hrest : s.top.rest = []) (hgrain : s.top.grain = some g)
    (hsql : s.top.applyGrain mode g = .ok (.text sql)) : Moves s (s.finish sql)
  | regrain {g} {opened : Frame.Opened m} (hrest : s.top.rest = []) (hgrain : s.top.grain = some g)
    (hopened : s.top.applyGrain mode g = .ok (.enter opened)) :
    Moves s (.next { s with top := opened.1 })

theorem moves_of_step {s : State m} {o : Outcome m} (h : step mode scope s = .ok o) :
    Moves mode scope s o := by
  unfold step at h
  split at h
  · rename_i segment rest hrest
    obtain ⟨⟨path, action⟩, haction, h⟩ := bind_ok h
    cases action with
    | text sql =>
      cases h
      exact .text hrest haction
    | enter opened =>
      obtain ⟨_, hcheck, h⟩ := bind_ok h
      cases h
      exact .enter hrest haction hcheck
  · rename_i hrest
    split at h
    · rename_i hgrain
      cases h
      exact .finish hrest hgrain
    · rename_i g hgrain
      obtain ⟨action, haction, h⟩ := bind_ok h
      cases action with
      | text sql =>
        cases h
        exact .truncate hrest hgrain haction
      | enter opened =>
        cases h
        exact .regrain hrest hgrain haction

/-! ## Stacks -/

variable (mode scope) in
/-- What the frames below come to when they are handed a text. -/
inductive Hands : List (Frame m) → String → String → List JoinPath → Prop
  | bottom {sql} : Hands [] sql sql []
  | frame {f below handed sql final ps qs}
    (hframe : Frame.Completes mode scope { f with out := f.out ++ handed } sql ps)
    (hbelow : Hands below sql final qs) : Hands (f :: below) handed final (ps ++ qs)

variable (mode scope) in
/-- What a state comes to: the text of its stack, and the starts of the paths walked until then
besides those recorded. -/
def State.Yields (s : State m) (fragment : Fragment) : Prop :=
  ∃ sql ps qs, Frame.Completes mode scope s.top sql ps ∧
    Hands mode scope s.below sql fragment.sql qs ∧
    ∀ q, q ∈ fragment.joins ↔ q ∈ s.joins ∨ JoinPath.Covered (ps ++ qs) q

variable (mode scope) in
/-- What a step leads to comes to the fragment. -/
def Outcome.Yields (o : Outcome m) (fragment : Fragment) : Prop :=
  match o with
  | .next s => State.Yields mode scope s fragment
  | .done f => f = fragment

/-- A finished top frame hands its text over. -/
theorem yields_of_finish {s : State m} {sql : String} {fragment : Fragment}
    (htop : Frame.Completes mode scope s.top sql [])
    (h : Outcome.Yields mode scope (s.finish sql) fragment) :
    State.Yields mode scope s fragment := by
  unfold State.finish at h
  split at h
  · rename_i hbelow
    cases h
    refine ⟨sql, [], [], htop, by rw [hbelow]; exact .bottom, fun q => ?_⟩
    exact (or_iff_left (JoinPath.covered_nil q)).symm
  · rename_i parent below hbelow
    obtain ⟨final, ps, qs, hparent, hhands, hjoins⟩ := h
    refine ⟨sql, [], ps ++ qs, htop, ?_, hjoins⟩
    rw [hbelow]
    exact .frame hparent hhands

/-- Every step leaves what the state comes to as it was. -/
theorem yields_of_moves {s : State m} {o : Outcome m} {fragment : Fragment}
    (h : Moves mode scope s o) (ho : Outcome.Yields mode scope o fragment) :
    State.Yields mode scope s fragment := by
  cases h with
  | @text segment rest path text hrest haction =>
    obtain ⟨final, _, qs, ⟨out, ps₁, ps₂, hout, hgrain, rfl⟩, hhands, hjoins⟩ := ho
    obtain ⟨ws, hws, hsegment⟩ := action_text haction
    refine ⟨final, ws ++ ps₁ ++ ps₂, qs, ⟨text ++ out, ws ++ ps₁, ps₂, ?_, ?_, rfl⟩, hhands, ?_⟩
    · rw [hrest]
      exact hsegment hout
    · rwa [← String.append_assoc]
    · intro q
      rw [hjoins, JoinPath.mem_record, or_assoc, List.append_assoc, List.append_assoc,
        List.append_assoc, @JoinPath.covered_append ws, hws]
  | @enter segment rest path opened hrest haction _ =>
    obtain ⟨sql, walked, _, hopened, hhands, hjoins⟩ := ho
    cases hhands with
    | frame hframe hbelow =>
      obtain ⟨out, ps₁, ps₂, hout, hgrain, rfl⟩ := hframe
      refine ⟨_, path :: (walked ++ ps₁) ++ ps₂, _,
        ⟨sql ++ out, path :: (walked ++ ps₁), ps₂, ?_, ?_, rfl⟩, hbelow, ?_⟩
      · rw [hrest]
        exact action_enter haction hopened hout
      · rwa [← String.append_assoc]
      · intro q
        rw [hjoins, JoinPath.mem_record, or_assoc, List.cons_append, List.cons_append,
          JoinPath.covered_cons, List.append_assoc, List.append_assoc, List.append_assoc]
  | finish hrest hgrain =>
    refine yields_of_finish ⟨"", [], [], ?_, ?_, rfl⟩ ho
    · rw [hrest]
      exact .done
    · rw [hgrain, String.append_empty]
      exact .none
  | truncate hrest hgrain hsql =>
    refine yields_of_finish ⟨"", [], [], ?_, ?_, rfl⟩ ho
    · rw [hrest]
      exact .done
    · rw [hgrain, String.append_empty]
      exact grained_of_applyGrain hsql
  | regrain hrest hgrain hopened =>
    obtain ⟨sql, ps, qs, htop, hhands, hjoins⟩ := ho
    refine ⟨sql, ps, qs, ⟨"", [], ps, ?_, ?_, rfl⟩, hhands, hjoins⟩
    · rw [hrest]
      exact .done
    · rw [hgrain, String.append_empty]
      exact grained_of_opened hopened htop

/-- A run that ends has come to what its start stands for. -/
theorem yields_of_run {s : State m} {fragment : Fragment}
    (h : run mode scope s = .ok fragment) : State.Yields mode scope s fragment := by
  induction hk : s.work using Nat.strongRecOn generalizing s with
  | ind k ih =>
    unfold run at h
    split at h
    · cases h
    · rename_i f hstep
      cases h
      exact yields_of_moves (moves_of_step hstep) rfl
    · rename_i s' hstep
      have hless := step_work_lt hstep
      rw [hk] at hless
      exact yields_of_moves (moves_of_step hstep) (ih _ hless h rfl)

/-! ## Columns -/

/-- A column that is expanded has the text it stands for by plain recursion, which is the only one,
and reads through the non-empty starts of all paths walked in the recursion. -/
theorem expandColumn_standsFor {path : JoinPath} {column : String} {arguments : Arguments}
    {grain : Option Grain} {f : Fragment}
    (h : expandColumn mode scope path column arguments grain = .ok f) :
    ∃ walked, StandsFor mode scope path column arguments grain f.sql walked ∧
      (∀ q, q ∈ f.joins ↔ q ≠ [] ∧ ∃ p ∈ walked, q <+: p) ∧
      ∀ sql walked', StandsFor mode scope path column arguments grain sql walked' →
        sql = f.sql ∧ walked' = walked := by
  obtain ⟨⟨t, reached⟩, hwalk, h⟩ := bind_ok h
  obtain ⟨opened, hopen, h⟩ := bind_ok h
  obtain ⟨sql, ps, qs, hopened, hhands, hjoins⟩ := yields_of_run h
  obtain ⟨hpath, hexpands⟩ := openColumn_ok mode scope hopen
  -- nothing is below the column, so its text is the fragment's
  cases hhands
  have hmeans : StandsFor mode scope path column arguments grain f.sql (reached :: ps) :=
    ⟨t, reached, ps, leads_of_walk hwalk, hexpands _ _ hopened, rfl⟩
  refine ⟨_, hmeans, fun q => ?_, fun sql walked' h' => h'.unique hmeans⟩
  rw [hjoins, List.append_nil, hpath, JoinPath.mem_record_or_covered]

/-- A template that is expanded, such as the condition of a join, has the text it stands for at the
table its path leads to, and reads through the starts of this path and of those walked. -/
theorem resolveTemplate_denotes {path : JoinPath} {text label : String} {f : Fragment}
    (h : resolveTemplate mode scope path text label = .ok f) :
    ∃ t u walked, tableAt scope.root path = .ok t ∧ Template.parse text = .ok u ∧
      Denotes mode scope ⟨t, path, none, .empty, none⟩ u f.sql walked ∧
      ∀ q, q ∈ f.joins ↔ q ≠ [] ∧ ∃ p ∈ path :: walked, q <+: p := by
  obtain ⟨⟨t, reached⟩, hwalk, h⟩ := bind_ok h
  obtain ⟨u, -, h⟩ := bind_ok h
  obtain ⟨sql, _, _, ⟨out, ps, qs, hout, hgrain, rfl⟩, hhands, hjoins⟩ := yields_of_run h
  have hleads := leads_of_walk hwalk
  obtain rfl : reached = path := by rw [hleads.path_eq, List.nil_append]
  -- the template has no grain, and nothing is below it
  obtain ⟨hsql, rfl⟩ := hgrain.unique .none
  obtain rfl : sql = out := hsql.trans String.empty_append
  cases hhands
  refine ⟨t, u.1, ps, tableAt_eq_ok_iff.2 hleads, u.2, hout, fun q => ?_⟩
  rw [hjoins, List.append_nil, List.append_nil, JoinPath.mem_record_or_covered]

end

/-! ## A column read twice, with its argument passed on and with its argument fixed -/

/-- Teams with a budget that is scaled. -/
def teams : Table where
  name := "teams"
  source := .physical none "teams"
  columns := [
    { name := "scaled", formula := "\x7b\x7b$budget\x7d\x7d * \x7b\x7b$$column.args.factor\x7d\x7d"
      parameters := [{ name := "factor", valueType := .integer, default := some "1" }]
      kind := .dimension }]

/-- Players who belong to teams. -/
def players : Table where
  name := "players"
  source := .physical none "player_stats"
  columns := [
    { name := "scaled", formula := "\x7b\x7b$score\x7d\x7d * \x7b\x7b$$column.args.factor\x7d\x7d"
      parameters := [{ name := "factor", valueType := .integer, default := some "1" }]
      kind := .dimension },
    { name := "scaled_twice"
      formula :=
        "\x7b\x7bscaled\x7d\x7d + \x7b\x7bsql from='team' column='scaled[factor:10]'\x7d\x7d"
      parameters := [{ name := "factor", valueType := .integer, default := some "3" }]
      kind := .dimension }]
  joins := [
    { name := "team", table := "teams"
      condition := "\x7b\x7b$team_id\x7d\x7d = \x7b\x7bteam.$id\x7d\x7d" }]

/-- Players and teams. -/
def league : Model where
  tables := [players, teams]

/-- The players of the league. -/
def leaguePlayers : league.Member := ⟨players, List.mem_cons_self⟩

/-- The caller's factor reaches the players' column, and the fixed one the column of the team. -/
theorem expandColumn_standsFor_scaledTwice :
    let factor := Arguments.ofList [("factor", "7")]
    let scope : Scope league := Scope.of leaguePlayers .empty
    let sql := "\"players\".\"score\" * 7 + \"players_team\".\"budget\" * 10"
    expandColumn ⟨.postgres, false⟩ scope [] "scaled_twice" factor none =
      .ok ⟨sql, [["team"]]⟩ ∧
    ∃ walked, StandsFor ⟨.postgres, false⟩ scope [] "scaled_twice" factor none sql walked ∧
      (∀ q, q ∈ [["team"]] ↔ q ≠ [] ∧ ∃ p ∈ walked, q <+: p) ∧
      ∀ sql' walked',
        StandsFor ⟨.postgres, false⟩ scope [] "scaled_twice" factor none sql' walked' →
        sql' = sql ∧ walked' = walked := by
  intro factor scope sql
  have h : expandColumn ⟨.postgres, false⟩ scope [] "scaled_twice" factor none =
      .ok ⟨sql, [["team"]]⟩ := by decide +kernel
  exact ⟨h, expandColumn_standsFor h⟩

end Expansion

end Rollup
