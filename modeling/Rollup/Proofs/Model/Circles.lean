/-
No circles after the trial of a model. A frame is refused when its key is in progress. The references
on the stack of an accepted model never come back to a column at the same grain, so keys repeat only
where their texts cannot tell things apart: where a table has the name of a way from it, or where the
value of an argument ends like the text of a grain.
-/
import Rollup.Proofs.Compile.Order
import Rollup.Proofs.Expansion.Depth

namespace Rollup

/-! ## Texts of keys -/

theorem Text.suffix_of_join {w : List Char} {xs : List String} (hw : w ≠ []) (hcomma : ',' ∉ w)
    (h : w <:+ (Text.join "," xs).toList) : ∃ x ∈ xs, w <:+ x.toList := by
  induction xs with
  | nil => exact (hw (List.suffix_nil.1 h)).elim
  | cons x rest ih =>
    cases rest with
    | nil => exact ⟨x, List.mem_cons_self, h⟩
    | cons y rest =>
      have hjoin : (Text.join "," (x :: y :: rest)).toList =
          (x.toList ++ [',']) ++ (Text.join "," (y :: rest)).toList := by
        simp [Text.join]
      have hlater : w <:+ (Text.join "," (y :: rest)).toList := by
        rw [hjoin] at h
        rcases List.suffix_or_suffix_of_suffix h (List.suffix_append _ _) with h' | ⟨k, rfl⟩
        · exact h'
        -- otherwise it would reach over the separator
        obtain ⟨start, hstart⟩ := h
        rw [← List.append_assoc, List.append_left_inj] at hstart
        rcases List.eq_nil_or_concat k with rfl | ⟨k, c, rfl⟩
        · exact List.suffix_refl _
        · rw [List.concat_eq_append, ← List.append_assoc] at hstart
          obtain ⟨-, hc⟩ := List.append_inj' hstart rfl
          simp_all
      obtain ⟨z, hz, hsuffix⟩ := ih hlater
      exact ⟨z, List.mem_cons_of_mem _ hz, hsuffix⟩

/-- The text of a grain in a key. -/
def Grain.tag (g : Grain) : List Char :=
  ("@grain=" ++ g.name).toList

theorem Grain.comma_not_mem_tag (g : Grain) : ',' ∉ g.tag := by
  cases g <;> decide

theorem Grain.tag_ne_nil (g : Grain) : g.tag ≠ [] := by
  cases g <;> decide

theorem Grain.eq_of_tag_suffix {g g' : Grain} (h : g.tag <:+ g'.tag) : g = g' := by
  revert h
  cases g <;> cases g' <;> decide

theorem Arguments.tag_suffix (a : Arguments) (g : Grain) :
    g.tag <:+ (a.signature (some g)).toList := by
  unfold Arguments.signature Grain.tag
  dsimp only
  rw [String.append_assoc]
  generalize "@grain=" ++ g.name = tag
  rw [String.toList_append]
  exact List.suffix_append _ _

theorem Arguments.tag_suffix_entry {a : Arguments} {g : Grain}
    (h : g.tag <:+ (a.signature none).toList) :
    ∃ e ∈ a.entries, g.tag <:+ (e.1 ++ "=" ++ e.2).toList := by
  obtain ⟨x, hx, hsuffix⟩ := Text.suffix_of_join g.tag_ne_nil g.comma_not_mem_tag h
  obtain ⟨e, he, rfl⟩ := List.mem_map.1 hx
  exact ⟨e, he, hsuffix⟩

/-- No argument of the column can have a value with which its text ends like that of a grain which
has a formula of its own. -/
def Column.TellsGrains (c : Column) : Prop :=
  ∀ d ∈ c.grains, d.formula.isSome = true → ∀ p ∈ c.parameters, ∀ v, p.check v = .ok () →
    ¬ d.grain.tag <:+ (p.name ++ "=" ++ v).toList

/-- No table has the name that the joins of a way from it make together. -/
def Model.TellsPlaces (m : Model) : Prop :=
  ∀ (t u : m.Member) (p : JoinPath), p ≠ [] → tableAt t p = .ok u → Text.join "_" p ≠ t.1.name

namespace Expansion

section

variable {m : Model}

/-- In a key a grain with a formula is never mistaken for an argument. -/
theorem signature_ne {c : Column} (hc : c.TellsGrains) {d : GrainDef} (hd : d ∈ c.grains)
    (hformula : d.formula.isSome = true) {a b : Arguments} (hb : Checked c.parameters b) :
    a.signature (some d.grain) ≠ b.signature none := by
  intro h
  have htag := a.tag_suffix d.grain
  rw [h] at htag
  obtain ⟨e, he, hsuffix⟩ := Arguments.tag_suffix_entry htag
  obtain ⟨p, hp, hname, hcheck⟩ := hb e he
  rw [← hname] at hsuffix
  exact hc d hd hformula p hp e.2 hcheck hsuffix

theorem grain_eq_of_signature {a b : Arguments} {g g' : Grain}
    (h : a.signature (some g) = b.signature (some g')) : g = g' := by
  have htag := a.tag_suffix g
  rw [h] at htag
  rcases List.suffix_or_suffix_of_suffix htag (b.tag_suffix g') with h' | h'
  · exact Grain.eq_of_tag_suffix h'
  · exact (Grain.eq_of_tag_suffix h').symm

/-! ## Places -/

/-- References lead on along joins. -/
theorem leads_of_transGen {r s : Ref m} (h : Relation.TransGen Ref.Refers r s) :
    ∃ joins, Leads r.table r.path joins s.table s.path := by
  induction h with
  | single hs =>
    obtain ⟨_, _, _, _, hopens⟩ := hs
    obtain ⟨joins, -, hleads⟩ := hopens.path_eq
    exact ⟨joins, hleads⟩
  | tail _ hs ih =>
    obtain ⟨joins, hleads⟩ := ih
    obtain ⟨_, _, _, _, hopens⟩ := hs
    obtain ⟨more, -, hmore⟩ := hopens.path_eq
    exact ⟨joins ++ more, hleads.append hmore⟩

/-- Two places along a way have one text only if they are one place, or if the first is the table
itself and the joins of the way make its name together. -/
theorem placeText_eq {t u : m.Member} {path q : JoinPath} {joins : List String}
    (h : Leads t path joins u q) (hplace : placeText t.1 path = placeText u.1 q) :
    (t = u ∧ path = q) ∨ (path = [] ∧ q ≠ [] ∧ Text.join "_" q = t.1.name) := by
  have hq := h.path_eq
  by_cases hjoins : joins = []
  · subst hjoins
    cases h
    exact .inl ⟨rfl, rfl⟩
  · cases path with
    | nil =>
      rw [List.nil_append] at hq
      subst hq
      cases q with
      | nil => exact (hjoins rfl).elim
      | cons name rest => exact .inr ⟨rfl, hjoins, hplace.symm⟩
    | cons first rest =>
      -- the text of a longer path is longer
      subst hq
      have hlonger : Text.join "_" (first :: rest) = Text.join "_" (first :: rest ++ joins) := hplace
      rw [join_append _ (List.cons_ne_nil _ _) hjoins] at hlonger
      have hlength := congrArg String.length hlonger
      simp only [String.length_append] at hlength
      have hsep : "_".length = 1 := rfl
      omega

/-- The place further along a path is another one. -/
theorem eq_of_placeText (hplaces : m.TellsPlaces) {t u : m.Member} {path q : JoinPath}
    {joins : List String} (h : Leads t path joins u q)
    (hplace : placeText t.1 path = placeText u.1 q) : t = u ∧ path = q := by
  refine (placeText_eq h hplace).resolve_right ?_
  rintro ⟨rfl, hne, hname⟩
  obtain rfl := h.path_eq
  exact hplaces t u _ hne (tableAt_eq_ok_iff.2 h) hname

/-! ## References on the stack -/

/-- References that lead from each to the one before, all to columns of their tables. -/
structure Climbs (refs : List (Ref m)) : Prop where
  refers : refs.IsChain fun r s => s.Refers r
  inTable : ∀ r ∈ refs, r.InTable

theorem transGen_of_climbs {r s : Ref m} {refs : List (Ref m)}
    (h : (r :: refs).IsChain fun r s => s.Refers r) (hs : s ∈ refs) :
    Relation.TransGen Ref.Refers s r := by
  induction refs generalizing r with
  | nil => cases hs
  | cons next rest ih =>
    obtain ⟨hnext, hrest⟩ := List.isChain_cons_cons.1 h
    rcases List.mem_cons.1 hs with rfl | hs
    · exact .single hnext
    · exact (ih hrest hs).tail hnext

/-- The more references there are on the stack, the fewer may follow. -/
theorem fits_of_climbs (hcheck : m.check = .ok ()) {r : Ref m} {refs : List (Ref m)}
    (h : Climbs (r :: refs)) :
    ∃ n, n + refs.length = m.maxDepth - 1 + 1 ∧ r.Fits n := by
  obtain ⟨hrefers, htables⟩ := h
  induction refs generalizing r with
  | nil => exact ⟨_, rfl, fits_of_check hcheck (htables r List.mem_cons_self)⟩
  | cons next rest ih =>
    obtain ⟨hnext, hrest⟩ := List.isChain_cons_cons.1 hrefers
    obtain ⟨n, hn, hfits⟩ := ih hrest fun s hs => htables s (List.mem_cons_of_mem _ hs)
    cases n with
    | zero => exact hfits.elim
    | succ n =>
      refine ⟨n, ?_, hfits r hnext⟩
      rw [List.length_cons]
      omega

/-- What a column refers to it also refers to at a grain where it has the same templates. -/
theorem transGen_of_uses {t : m.Member} {path : JoinPath} {c : m.AnyColumn} {g g' : Option Grain}
    {s : Ref m} (huses : ∀ u, Ref.Uses ⟨t, path, c, g⟩ u → Ref.Uses ⟨t, path, c, g'⟩ u)
    (h : Relation.TransGen Ref.Refers ⟨t, path, c, g⟩ s) :
    Relation.TransGen Ref.Refers ⟨t, path, c, g'⟩ s := by
  obtain ⟨r, ⟨u, hu, hopens⟩, hrest⟩ := Relation.TransGen.head'_iff.1 h
  exact Relation.TransGen.head' ⟨u, huses u hu, hopens⟩ hrest

/-- A column that is reached from another has another key. -/
theorem key_ne (hcheck : m.check = .ok ()) (hplaces : m.TellsPlaces)
    (hgrains : ∀ c ∈ m.columns, c.TellsGrains) {r s : Ref m} (hr : r.InTable) (hs : s.InTable)
    (h : Relation.TransGen Ref.Refers r s) {a b : Arguments}
    (ha : Checked r.column.1.parameters a) (hb : Checked s.column.1.parameters b) :
    (⟨placeText r.table.1 r.path, r.column.1.name, a.signature r.grain⟩ : FrameKey) ≠
      ⟨placeText s.table.1 s.path, s.column.1.name, b.signature s.grain⟩ := by
  intro hkey
  obtain ⟨hplace, hname, hsignature⟩ := FrameKey.mk.injEq .. ▸ hkey
  obtain ⟨joins, hleads⟩ := leads_of_transGen h
  obtain ⟨t, path, c, g⟩ := r
  obtain ⟨u, q, c', g'⟩ := s
  obtain ⟨rfl, rfl⟩ : t = u ∧ path = q := eq_of_placeText hplaces hleads hplace
  obtain rfl : c = c' := by
    obtain ⟨n, hc⟩ := hr
    obtain ⟨n', hc'⟩ := hs
    obtain rfl : c.1.name = n := (name_of_column? hc).2
    obtain rfl : c'.1.name = n' := (name_of_column? hc').2
    rw [show c.1.name = c'.1.name from hname] at hc
    exact Option.some.inj (hc.symm.trans hc')
  -- it is the same column, so only the grains can differ
  have hirrefl : ∀ g, ¬ Relation.TransGen Ref.Refers ⟨t, path, c, g⟩ ⟨t, path, c, g⟩ :=
    fun g => (fits_of_check hcheck (r := ⟨t, path, c, g⟩) hr).irrefl
  cases g with
  | none =>
    refine hirrefl g' (transGen_of_uses (fun v huses => ?_) h)
    cases huses with
    | formula hread => exact .formula hread
    | grain hg _ _ => cases hg
  | some g =>
    cases g' with
    | some g' =>
      obtain rfl := grain_eq_of_signature hsignature
      exact hirrefl _ h
    | none =>
      cases htext : (c.1.grain? g).bind (·.formula) with
      | none =>
        refine hirrefl none (transGen_of_uses (fun v huses => ?_) h)
        cases huses with
        | formula hread => exact .formula hread
        | grain hg hsome _ =>
          cases hg
          cases htext.symm.trans hsome
      | some text =>
        obtain ⟨d, hd, hformula⟩ := Option.bind_eq_some_iff.1 htext
        obtain rfl : d.grain = g := by simpa using List.find?_some hd
        exact signature_ne (hgrains c.1 c.2) (List.mem_of_find?_eq_some hd)
          (by rw [hformula]; rfl) hb hsignature

/-! ## Runs -/

/-- A stack whose frames expand columns, each opened by the one below. -/
structure State.Founded (s : State m) : Prop where
  keyed : State.Keyed s
  stands : ∃ refs, List.Forall₂ Frame.Stands (s.top :: s.below) refs ∧ Climbs refs

variable {mode : Mode} {scope : Scope m}

theorem Frame.Stands.refers {f : Frame m} {r s : Ref m} (h : Frame.Stands f r) {segment : Segment}
    (hahead : Frame.Ahead f segment) (hopens : Opens f.table f.path segment s) : r.Refers s := by
  obtain ⟨u, huses, hmem⟩ := h.ahead segment hahead
  rw [h.table, h.path] at hopens
  exact ⟨u, huses, segment, hmem, hopens⟩

/-- On such a stack every column may be opened that the top frame refers to. -/
theorem checkEnter_founded (hcheck : m.check = .ok ()) (hplaces : m.TellsPlaces)
    (hgrains : ∀ c ∈ m.columns, c.TellsGrains) {s : State m} (h : State.Founded s) {segment : Segment}
    (hahead : Frame.Ahead s.top segment) {f : Frame m} {r : Ref m}
    (hopens : Opens s.top.table s.top.path segment r) (hf : Frame.Stands f r) :
    s.checkEnter f = .ok () := by
  obtain ⟨hkeyed, refs, hstands, hclimbs⟩ := h
  cases hstands with | @cons _ top _ below htop hbelow =>
  have hrefers : top.Refers r := htop.refers hahead hopens
  have hr : r.InTable := hopens.column_eq
  unfold State.checkEnter
  rw [if_neg, if_neg]
  · -- the column still fits, so there is room
    obtain ⟨n, hn, hfits⟩ := fits_of_climbs hcheck hclimbs
    obtain ⟨k, hk, hfits⟩ := hfits.exists_lt (.single hrefers)
    have hpos : k ≠ 0 := by
      rintro rfl
      exact hfits
    have hlength := hbelow.length_eq
    omega
  · intro hany
    obtain ⟨k, hk, hmem⟩ := (Option.any_eq_true _ _).1 hany
    rw [List.contains_iff_mem, hkeyed, List.mem_filterMap] at hmem
    obtain ⟨f', hf', hk'⟩ := hmem
    obtain ⟨r', hr', hstands'⟩ := exists_beside (.cons htop hbelow) hf'
    have hbefore : Relation.TransGen Ref.Refers r' r := by
      rcases List.mem_cons.1 hr' with rfl | hr'
      · exact .single hrefers
      · exact (transGen_of_climbs hclimbs.refers hr').tail hrefers
    obtain ⟨a, ha, hkey⟩ := hf.key
    obtain ⟨a', ha', hkey'⟩ := hstands'.key
    refine key_ne hcheck hplaces hgrains (hclimbs.inTable r' hr') hr hbefore ha' ha ?_
    rw [hk] at hkey
    rw [hk'] at hkey'
    exact Option.some.inj (hkey'.symm.trans hkey)

/-- What a step leads to is founded again. -/
theorem founded_of_moves {s s' : State m} (h : State.Founded s)
    (hmoves : Moves mode scope s (.next s')) : State.Founded s' := by
  obtain ⟨hkeyed, refs, hstands, hclimbs⟩ := h
  cases hstands with | @cons _ top _ below htop hbelow =>
  have hpopped : ∀ {sql}, s.finish sql = .next s' → State.Founded s' := by
    intro sql hfinish
    unfold State.finish at hfinish
    split at hfinish
    · cases hfinish
    · rename_i parent rest hrest
      cases hfinish
      rw [hrest] at hbelow
      cases hbelow with | @cons _ r _ refs hparent hrest' =>
      have hkeyed' := hkeyed.finish hrest
      refine ⟨hkeyed', r :: refs, .cons { hparent with } hrest', ?_⟩
      exact ⟨(List.isChain_cons_cons.1 hclimbs.refers).2,
        fun r hr => hclimbs.inTable r (List.mem_cons_of_mem _ hr)⟩
  generalize ho : Outcome.next s' = o at hmoves
  cases hmoves with
  | text hrest haction =>
    cases ho
    exact ⟨hkeyed, _, .cons (htop.advance hrest _) hbelow, hclimbs⟩
  | enter hrest haction hcheck =>
    cases ho
    obtain ⟨r, hopens, hstarts⟩ := starts_of_action haction
    have hrefers : top.Refers r := htop.refers (.inl (hrest ▸ List.mem_cons_self)) hopens
    have hstack := List.Forall₂.cons hstarts.toStands (.cons (htop.advance hrest s.top.out) hbelow)
    refine ⟨hkeyed.enter _ _ _, _, hstack, List.isChain_cons_cons.2 ⟨hrefers, hclimbs.refers⟩, ?_⟩
    intro s hs
    rcases List.mem_cons.1 hs with rfl | hs
    · exact hopens.column_eq
    · exact hclimbs.inTable s hs
  | finish hrest hgrain => exact hpopped ho.symm
  | truncate hrest hgrain hsql => exact hpopped ho.symm
  | regrain hrest hgrain hopened =>
    cases ho
    refine ⟨hkeyed.regrain (applyGrain_key hopened), _, .cons ?_ hbelow, hclimbs⟩
    exact htop.regrain hgrain hopened

/-- On such a stack no step fails for a circle. -/
theorem acyclic_step (hcheck : m.check = .ok ()) (hplaces : m.TellsPlaces)
    (hgrains : ∀ c ∈ m.columns, c.TellsGrains) {s : State m} (h : State.Founded s) :
    Acyclic (step mode scope s) := by
  unfold step
  split
  · rename_i segment rest hrest
    refine (acyclic_action _ _ _ _).bind fun ⟨path, action⟩ haction => ?_
    cases action with
    | text sql => exact acyclic_ok _
    | enter opened =>
      obtain ⟨r, hopens, hstarts⟩ := starts_of_action haction
      have hahead : Frame.Ahead s.top segment := .inl (hrest ▸ List.mem_cons_self)
      have henter := checkEnter_founded hcheck hplaces hgrains h hahead hopens hstarts.toStands
      simp only [henter]
      exact acyclic_ok _
  · split
    · exact acyclic_ok _
    · refine (acyclic_applyGrain _ _ _).bind fun action _ => ?_
      cases action with
      | text sql => exact acyclic_ok _
      | enter opened => exact acyclic_ok _

theorem acyclic_founded (hcheck : m.check = .ok ()) (hplaces : m.TellsPlaces)
    (hgrains : ∀ c ∈ m.columns, c.TellsGrains) {s : State m} (h : State.Founded s) :
    Acyclic (run mode scope s) :=
  avoids_run (fun _ hs => acyclic_step hcheck hplaces hgrains hs) (fun _ _ => founded_of_moves) h

/-- In an accepted model no column fails for a circle, from whatever table, along whatever path, with
whatever arguments and at whatever grain it is expanded, provided that keys tell apart tables and
ways from them, and grains and values of arguments. -/
theorem resolveColumn_acyclic {tables : List Table} {depth : Nat}
    (hbuild : Model.build tables depth = .ok m) (hplaces : m.TellsPlaces)
    (hgrains : ∀ c ∈ m.columns, c.TellsGrains) (mode : Mode) (scope : Scope m) (path : JoinPath)
    (column : String) (arguments : Arguments) (grain : Option Grain) (memo : Memo) :
    Acyclic ((resolveColumn mode scope path column arguments grain).run memo) := by
  have hcheck := Model.check_of_build hbuild
  have hexpand : Acyclic (expandColumn mode scope path column arguments grain) := by
    refine (acyclic_walk _ _ _ _).bind fun ⟨t, reached⟩ _ => ?_
    refine (acyclic_openColumn _ _ _ _ _ _ _).bind fun opened hopen => ?_
    obtain ⟨c, hcolumn, hstarts⟩ := starts_of_openColumn hopen
    refine acyclic_founded hcheck hplaces hgrains ⟨?_, _, .cons hstarts.toStands .nil, ?_⟩
    · unfold State.Keyed
      rw [List.filterMap_cons]
      cases opened.1.key <;> rfl
    · refine ⟨List.IsChain.singleton _, fun r hr => ?_⟩
      rw [List.mem_singleton.1 hr]
      exact ⟨column, hcolumn⟩
  intro e he
  exact hexpand e (resolveColumn_error he)

end

/-! ## Models whose keys tell things apart -/

theorem tellsPlaces_of_star {m : Model} (hstar : ∀ t ∈ m.tables, ∀ j ∈ t.joins,
    j.name ≠ t.name ∧ ∀ u, m.member? j.table = some u → u.1.joins = []) : m.TellsPlaces := by
  intro t u p hne hp
  have hpath := JoinPlan.path_of_star (fun j hj => (hstar t.1 t.2 j hj).2) hp
  rcases List.mem_cons.1 hpath with rfl | hpath
  · exact (hne rfl).elim
  · obtain ⟨j, hj, rfl⟩ := List.mem_map.1 hpath
    exact (hstar t.1 t.2 j hj).1

/-- Of listed values only these are accepted. -/
theorem mem_allowed_of_check {p : Parameter} {v : String} (hlisted : p.allowed.isSome = true)
    (h : p.check v = .ok ()) : v ∈ p.allowed.getD [] := by
  obtain ⟨vs, hvs⟩ := Option.isSome_iff_exists.1 hlisted
  unfold Parameter.check at h
  rw [hvs] at h ⊢
  dsimp only at h
  split at h
  · rename_i hmem
    exact List.contains_iff_mem.1 hmem
  · cases h

theorem tellsGrains_of_listed {c : Column} (hlisted : ∀ p ∈ c.parameters, p.allowed.isSome = true)
    (hvalues : ∀ d ∈ c.grains, d.formula.isSome = true → ∀ p ∈ c.parameters,
      ∀ v ∈ p.allowed.getD [], ¬ d.grain.tag <:+ (p.name ++ "=" ++ v).toList) :
    c.TellsGrains := by
  exact fun d hd hformula p hp v hcheck =>
    hvalues d hd hformula p hp v (mem_allowed_of_check (hlisted p hp) hcheck)

/-! ## A grain by the column itself -/

/-- Days are cut out of the column as it is without a grain. -/
def concerts : Table where
  name := "concerts"
  source := .physical none "concerts"
  columns := [
    { name := "held", formula := "\x7b\x7b$held_at\x7d\x7d"
      parameters := [
        { name := "calendar", allowed := some ["civil", "season"], default := some "civil" }]
      kind := .timeDimension [
        { grain := .day, formula := some "CAST(\x7b\x7bheld\x7d\x7d AS DATE)" },
        { grain := .month }] },
    { name := "city", formula := "\x7b\x7bvenue.city\x7d\x7d", kind := .dimension }]
  joins := [
    { name := "venue", table := "venues"
      condition := "\x7b\x7b$venue_id\x7d\x7d = \x7b\x7bvenue.$id\x7d\x7d" }]

/-- Venues with their cities. -/
def venues : Table where
  name := "venues"
  source := .physical none "venues"
  columns := [{ name := "city", formula := "\x7b\x7b$city\x7d\x7d", kind := .dimension }]

/-- Concerts and venues. -/
def season : Model where
  tables := [concerts, venues]

theorem resolveColumn_acyclic_season :
    Model.build [concerts, venues] = .ok season ∧ season.TellsPlaces ∧
    (∀ c ∈ season.columns, c.TellsGrains) ∧
    ∀ (mode : Mode) (scope : Scope season) (path : JoinPath) (column : String)
      (arguments : Arguments) (grain : Option Grain) (memo : Memo),
      Acyclic ((resolveColumn mode scope path column arguments grain).run memo) := by
  have hbuild : Model.build [concerts, venues] = .ok season := by decide +kernel
  have hplaces : season.TellsPlaces := tellsPlaces_of_star (by decide +kernel)
  have hgrains : ∀ c ∈ season.columns, c.TellsGrains := by
    have hlisted : ∀ c ∈ season.columns, ∀ p ∈ c.parameters, p.allowed.isSome = true := by
      decide +kernel
    have hvalues : ∀ c ∈ season.columns, ∀ d ∈ c.grains, d.formula.isSome = true →
        ∀ p ∈ c.parameters, ∀ v ∈ p.allowed.getD [],
          ¬ d.grain.tag <:+ (p.name ++ "=" ++ v).toList := by
      decide +kernel
    exact fun c hc => tellsGrains_of_listed (hlisted c hc) (hvalues c hc)
  exact ⟨hbuild, hplaces, hgrains, resolveColumn_acyclic hbuild hplaces hgrains⟩

/-! ## A value that ends like a grain -/

/-- Days are cut out of the column with a value of its argument that looks like a day. -/
def games : Table where
  name := "games"
  source := .physical none "games"
  columns := [
    { name := "played", formula := "\x7b\x7b$played_at\x7d\x7d"
      parameters := [
        { name := "calendar", allowed := some ["civil", "club", "club,@grain=day"]
          default := some "civil" }]
      kind := .timeDimension [
        { grain := .day
          formula := some
            "CAST(\x7b\x7bsql column='played[calendar:club,@grain=day]'\x7d\x7d AS DATE)" }] }]

/-- The model of the games. -/
def tournament : Model where
  tables := [games]

/-- The games in their model. -/
def tournamentGames : tournament.Member := ⟨games, List.mem_cons_self⟩

/-- The club's day is cut out of another value of the column, but their keys are the same. -/
theorem resolveColumn_cyclic_played :
    Model.build [games] = .ok tournament ∧ tournament.TellsPlaces ∧
    ∃ e, (resolveColumn ⟨.sqlite, false⟩ (Scope.of tournamentGames .empty) [] "played"
      (Arguments.ofList [("calendar", "club")]) (some .day)).run [] = .error e ∧
      e.kind = .cyclic := by
  refine ⟨by decide +kernel, tellsPlaces_of_star (by decide +kernel),
    .cycle ["games.played[day]", "games.played"], ?_, rfl⟩
  decide +kernel

end Expansion

end Rollup
