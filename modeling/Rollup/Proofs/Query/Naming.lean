/-
Names that columns are given when none is asked for. A name that only one column would have is the
plain one, and any other goes on with the grain and a digest of the whole path. The text of a path
and the start of its long name together tell everything of the path but its arguments, which are
shown with nothing to keep their names and values apart. So the names differ exactly where the
arguments are told by how they are shown, and where no long name is the plain name of another
column.
-/
import Mathlib.Data.List.Nodup
import Rollup.Proofs.Compile.SinglePass
import Rollup.Proofs.Expansion.Trial
import Rollup.Proofs.Model.Signatures
import Rollup.Proofs.Sql.Alias
import Rollup.Query.Build

namespace Rollup

theorem Grain.name_injective : Function.Injective Grain.name := by
  intro g g'
  cases g <;> cases g' <;> decide

namespace Path

/-! ## Signs of paths -/

/-- What the text of a path is made of: characters of names, and marks before a step and before the
grain. -/
inductive Sign where
  | char (c : Char)
  | step
  | grain
  deriving DecidableEq, Repr

namespace Sign

/-- The sign in the text of a path. -/
def shown : Sign → Char
  | char c => c
  | step => '.'
  | grain => '@'

/-- The sign in the name of a column. -/
def named : Sign → Char
  | char c => c
  | step => '_'
  | grain => '_'

/-- A sign is told by both together. -/
theorem eq_of_shown_of_named {x y : Sign} (hshown : x.shown = y.shown)
    (hnamed : x.named = y.named) : x = y := by
  cases x <;> cases y <;> grind [shown, named]

theorem list_eq_of_shown_of_named {xs ys : List Sign} (hshown : xs.map shown = ys.map shown)
    (hnamed : xs.map named = ys.map named) : xs = ys := by
  induction xs generalizing ys with
  | nil => exact (List.map_eq_nil_iff.1 hshown.symm).symm
  | cons x xs ih =>
    cases ys with
    | nil => cases hshown
    | cons y ys =>
      rw [List.map_cons, List.map_cons, List.cons.injEq] at hshown hnamed
      rw [eq_of_shown_of_named hshown.1 hnamed.1, ih hshown.2 hnamed.2]

/-- Brackets are characters of names in both. -/
theorem count_bracket (xs : List Sign) :
    (xs.map shown).count '[' = (xs.map named).count '[' := by
  induction xs with
  | nil => rfl
  | cons x xs ih =>
    have hx : (x.shown == '[') = (x.named == '[') := by cases x <;> rfl
    rw [List.map_cons, List.map_cons, List.count_cons, List.count_cons, ih, hx]

end Sign

/-- The signs of steps, the last of which is the column, and of a grain. -/
def signs (names : List String) (g : Option Grain) : List Sign :=
  names.flatMap (fun n => .step :: n.toList.map .char) ++
    g.toList.flatMap fun g => .grain :: g.name.toList.map .char

theorem chars_append_inj {as bs : List Char} {r r' : List Sign}
    (hr : ∀ c, .char c ∉ r.head?) (hr' : ∀ c, .char c ∉ r'.head?)
    (h : as.map Sign.char ++ r = bs.map Sign.char ++ r') : as = bs ∧ r = r' := by
  induction as generalizing bs with
  | nil =>
    cases bs with
    | nil => exact ⟨rfl, h⟩
    | cons b bs =>
      rw [List.map_nil, List.nil_append] at h
      exact absurd (by rw [h]; rfl) (hr b)
  | cons a as ih =>
    cases bs with
    | nil =>
      rw [List.map_nil, List.nil_append] at h
      exact absurd (by rw [← h]; rfl) (hr' a)
    | cons b bs =>
      rw [List.map_cons, List.map_cons, List.cons_append, List.cons_append, List.cons.injEq,
        Sign.char.injEq] at h
      obtain ⟨rfl, rfl⟩ := ih h.2
      exact ⟨by rw [h.1], rfl⟩

/-- The signs tell the steps and the grain. -/
theorem signs_inj {names names' : List String} {g g' : Option Grain}
    (h : signs names g = signs names' g') : names = names' ∧ g = g' := by
  have hmark (names : List String) (g : Option Grain) : ∀ c, .char c ∉ (signs names g).head? := by
    intro c
    cases names <;> cases g <;> simp [signs]
  induction names generalizing names' with
  | nil =>
    cases names' with
    | nil =>
      refine ⟨rfl, ?_⟩
      revert h
      cases g <;> cases g' <;> simp [signs, List.map_inj_right, String.toList_inj,
        Grain.name_injective.eq_iff]
    | cons n' names' => cases g <;> simp [signs] at h
  | cons n names ih =>
    cases names' with
    | nil => cases g' <;> simp [signs] at h
    | cons n' names' =>
      simp only [signs, List.flatMap_cons, List.cons_append, List.cons.injEq, true_and,
        List.append_assoc] at h
      obtain ⟨hn, hrest⟩ := chars_append_inj (hmark names g) (hmark names' g') h
      obtain ⟨rfl, rfl⟩ := ih hrest
      exact ⟨by rw [String.toList_inj.1 hn], rfl⟩

/-! ## Texts of paths -/

variable (p : Path)

/-- The steps and the grain of a path, as its text begins with them. -/
def stepText : String :=
  Text.join "." (p.joins ++ [p.column]) ++
    match p.grain with
    | some g => "@" ++ g.name
    | none => ""

/-- The arguments of a path, as its text ends with them. -/
def argumentText : String :=
  if p.arguments.isEmpty then ""
  else "[" ++ Text.join "," (p.arguments.entries.map fun (n, v) => n ++ ":" ++ v) ++ "]"

/-- The plain name and the grain, as a long name begins with them. -/
def nameText : String :=
  p.baseAlias ++
    match p.grain with
    | some g => "_" ++ g.name
    | none => ""

theorem display_eq : p.display = p.stepText ++ p.argumentText := rfl

theorem longAlias_eq : Query.longAlias p = p.nameText ++ "_" ++ Digest.short p.display := rfl

/-- Whether the plain name leaves out the steps before the column, which have no characters. -/
def isBare : Bool :=
  !p.joins.isEmpty && (Text.join "_" p.joins).isEmpty

/-- The steps that the plain name shows. -/
def namedSteps : List String :=
  if p.isBare then [p.column] else p.joins ++ [p.column]

theorem joins_of_isBare {p : Path} (h : p.isBare = true) : p.joins = [""] := by
  rw [isBare, Bool.and_eq_true, Bool.not_eq_true', List.isEmpty_eq_false_iff,
    String.isEmpty_iff] at h
  obtain ⟨hne, hempty⟩ := h
  match hjoins : p.joins with
  | [] => exact absurd hjoins hne
  | [n] =>
    rw [hjoins] at hempty
    exact congrArg ([·]) hempty
  | n :: m :: rest =>
    rw [hjoins] at hempty
    simp [Text.join] at hempty

/-- Every piece with a separator before it. -/
theorem cons_join {sep : String} {c : Char} (hsep : sep.toList = [c]) {names : List String}
    (hne : names ≠ []) :
    c :: (Text.join sep names).toList = names.flatMap fun n => c :: n.toList := by
  induction names with
  | nil => exact absurd rfl hne
  | cons n rest ih =>
    cases rest with
    | nil => simp [Text.join]
    | cons m rest =>
      rw [List.flatMap_cons, ← ih (List.cons_ne_nil _ _)]
      simp [Text.join, hsep]

theorem map_signs (f : Sign → Char) (hf : ∀ c, f (.char c) = c) (names : List String)
    (g : Option Grain) : (signs names g).map f =
      names.flatMap (fun n => f .step :: n.toList) ++
        g.toList.flatMap fun g => f .grain :: g.name.toList := by
  have hchars (cs : List Char) : (cs.map Sign.char).map f = cs := by
    simp [Function.comp_def, hf]
  simp only [signs, List.map_append, List.map_flatMap, List.map_cons, hchars]

theorem baseAlias_eq : p.baseAlias = Text.join "_" p.namedSteps := by
  rw [baseAlias, namedSteps]
  cases hbare : p.isBare with
  | true =>
    rw [joins_of_isBare hbare]
    rfl
  | false =>
    rw [isBare] at hbare
    cases hjoins : p.joins with
    | nil => rfl
    | cons n rest =>
      rw [hjoins, List.isEmpty_cons, Bool.not_false, Bool.true_and] at hbare
      rw [hbare, if_neg Bool.false_ne_true, if_neg Bool.false_ne_true,
        Expansion.join_append "_" (List.cons_ne_nil n rest) (List.cons_ne_nil p.column [])]
      rfl

theorem named_signs :
    (signs p.namedSteps p.grain).map Sign.named = '_' :: p.nameText.toList := by
  have hne : p.namedSteps ≠ [] := by
    rw [namedSteps]
    split <;> simp
  rw [map_signs _ fun _ => rfl, nameText, baseAlias_eq, String.toList_append, ← List.cons_append,
    cons_join rfl hne]
  cases p.grain <;> simp [Sign.named]

theorem shown_signs :
    (signs p.namedSteps p.grain).map Sign.shown =
      if p.isBare then p.stepText.toList else '.' :: p.stepText.toList := by
  rw [map_signs _ fun _ => rfl, stepText, namedSteps]
  split
  case isTrue hbare =>
    rw [joins_of_isBare hbare]
    cases p.grain <;> simp [Sign.shown, Text.join]
  case isFalse hbare =>
    rw [String.toList_append, ← List.cons_append, cons_join rfl (by simp)]
    cases p.grain <;> simp [Sign.shown]

/-- Arguments that are shown at all begin with a bracket. -/
theorem head?_argumentText : ∀ c ∈ p.argumentText.toList.head?, c = '[' := by
  rw [argumentText]
  split
  · simp
  · intro c hc
    simpa using hc.symm

variable {p} {q : Path}

/-- A path whose plain name leaves steps out is not taken for one whose name does not. -/
theorem isBare_eq (hdisplay : p.display = q.display) (hname : p.nameText = q.nameText)
    (hp : p.isBare = true) : q.isBare = true := by
  by_contra hq
  have hdisplay := congrArg String.toList hdisplay
  rw [display_eq, display_eq, String.toList_append, String.toList_append] at hdisplay
  have hnamed : (signs p.namedSteps p.grain).map Sign.named =
      (signs q.namedSteps q.grain).map Sign.named := by rw [named_signs, named_signs, hname]
  have hlength := congrArg List.length hnamed
  rw [List.length_map, List.length_map] at hlength
  have hshown := p.shown_signs
  have hshown' := q.shown_signs
  rw [if_pos hp] at hshown
  rw [if_neg hq] at hshown'
  -- the text of the other one has a bracket more than its name
  have hcount := (Sign.count_bracket (signs p.namedSteps p.grain)).trans
    ((congrArg (List.count '[') hnamed).trans
      (Sign.count_bracket (signs q.namedSteps q.grain)).symm)
  rw [hshown, hshown', List.count_cons_of_ne (by decide)] at hcount
  rw [← List.length_map Sign.shown, ← List.length_map Sign.shown, hshown, hshown',
    List.length_cons] at hlength
  rcases List.append_eq_append_iff.1 hdisplay with ⟨k, hk, -⟩ | ⟨k, hk, harguments⟩
  · rw [hk, List.length_append] at hlength
    omega
  · rw [hk, List.length_append, Nat.add_left_cancel_iff, List.length_eq_one_iff] at hlength
    obtain ⟨c, rfl⟩ := hlength
    obtain rfl : c = '[' := q.head?_argumentText c (by rw [harguments]; rfl)
    rw [hk, List.count_append] at hcount
    simp at hcount

/-- Two paths whose texts are the same, and whose long names begin alike, differ at most in their
arguments, and these are shown alike. -/
theorem eq_of_display_of_nameText (hdisplay : p.display = q.display)
    (hname : p.nameText = q.nameText) :
    p.joins = q.joins ∧ p.column = q.column ∧ p.grain = q.grain ∧
      p.argumentText = q.argumentText := by
  have hbare : p.isBare = q.isBare := by
    rw [Bool.eq_iff_iff]
    exact ⟨isBare_eq hdisplay hname, isBare_eq hdisplay.symm hname.symm⟩
  have hnamed : (signs p.namedSteps p.grain).map Sign.named =
      (signs q.namedSteps q.grain).map Sign.named := by rw [named_signs, named_signs, hname]
  have htexts : p.stepText.toList = q.stepText.toList ∧
      p.argumentText.toList = q.argumentText.toList := by
    have hlength := congrArg List.length hnamed
    rw [List.length_map, List.length_map, ← List.length_map Sign.shown,
      ← List.length_map Sign.shown, shown_signs, shown_signs, hbare] at hlength
    have hdisplay := congrArg String.toList hdisplay
    rw [display_eq, display_eq, String.toList_append, String.toList_append] at hdisplay
    refine List.append_inj hdisplay ?_
    split at hlength
    · exact hlength
    · exact Nat.succ.inj hlength
  have hshown : (signs p.namedSteps p.grain).map Sign.shown =
      (signs q.namedSteps q.grain).map Sign.shown := by
    rw [shown_signs, shown_signs, hbare, htexts.1]
  obtain ⟨hsteps, hgrain⟩ := signs_inj (Sign.list_eq_of_shown_of_named hshown hnamed)
  have hpath : p.joins = q.joins ∧ p.column = q.column := by
    rw [namedSteps, namedSteps, hbare] at hsteps
    split at hsteps
    case isTrue h =>
      rw [joins_of_isBare h, joins_of_isBare (hbare.trans h)]
      exact ⟨rfl, List.cons.inj hsteps |>.1⟩
    case isFalse =>
      obtain ⟨hjoins, hcolumn⟩ := List.append_inj' hsteps rfl
      exact ⟨hjoins, List.cons.inj hcolumn |>.1⟩
  exact ⟨hpath.1, hpath.2, hgrain, String.toList_inj.1 htexts.2⟩

end Path

namespace Path

/-! ## Arguments told by their text -/

/-- The entries of the arguments as they are shown. -/
def argumentTexts (p : Path) : List String :=
  p.arguments.entries.map fun (n, v) => n ++ ":" ++ v

/-- An entry with none of the characters that texts of arguments are put together with. -/
def ShownApart (e : String × String) : Prop :=
  ',' ∉ e.1.toList ∧ ':' ∉ e.1.toList ∧ ',' ∉ e.2.toList

instance (e : String × String) : Decidable (ShownApart e) :=
  inferInstanceAs (Decidable (_ ∧ _))

variable {p q : Path}

theorem join_eq_of_argumentText (h : p.argumentText = q.argumentText) :
    Text.join "," p.argumentTexts = Text.join "," q.argumentTexts := by
  rw [argumentText, argumentText] at h
  split at h <;> split at h
  case isTrue.isTrue hp hq =>
    rw [argumentTexts, argumentTexts, List.isEmpty_iff.1 hp, List.isEmpty_iff.1 hq]
  case isTrue.isFalse => simp [String.ext_iff] at h
  case isFalse.isTrue => simp [String.ext_iff] at h
  case isFalse.isFalse =>
    have hchars := congrArg String.toList h
    simpa [String.toList_inj, argumentTexts] using hchars

theorem argumentTexts_apart (h : ∀ e ∈ p.arguments.entries, ShownApart e) :
    ∀ x ∈ p.argumentTexts, x ≠ "" ∧ ',' ∉ x.toList := by
  intro x hx
  obtain ⟨e, he, rfl⟩ := List.mem_map.1 hx
  obtain ⟨hname, -, hvalue⟩ := h e he
  simp [hname, hvalue]

/-- Shown arguments are told by their text where their names and values have none of the characters
that the text is put together with. -/
theorem arguments_eq_of_argumentText (hp : ∀ e ∈ p.arguments.entries, ShownApart e)
    (hq : ∀ e ∈ q.arguments.entries, ShownApart e) (h : p.argumentText = q.argumentText) :
    p.arguments = q.arguments := by
  have htexts : p.argumentTexts = q.argumentTexts := Text.eq_of_join (argumentTexts_apart hp)
    (argumentTexts_apart hq) (join_eq_of_argumentText h)
  have hlength : p.arguments.entries.length = q.arguments.entries.length := by
    simpa [argumentTexts] using congrArg List.length htexts
  refine Arguments.eq_of_entries (List.ext_getElem hlength fun i hi hi' => ?_)
  have hentry := List.getElem_of_eq htexts (by simpa [argumentTexts] using hi)
  simp only [argumentTexts, List.getElem_map] at hentry
  obtain ⟨hname, hvalue⟩ := Text.eq_of_append_cons ':' (hp _ (List.getElem_mem hi)).2.1
    (hq _ (List.getElem_mem hi')).2.1 (by simpa using congrArg String.toList hentry)
  exact Prod.ext (String.toList_inj.1 hname) (String.toList_inj.1 hvalue)

end Path

namespace Query

/-! ## Names of a selection -/

/-- Another column without a name has the same plain name. -/
def Shared (all : List Selected) (s : Selected) : Prop :=
  1 < ((all.filter (·.name.isNone)).filter (·.path.baseAlias == s.path.baseAlias)).length

/-- The output column of a selected one. -/
def named (all : List Selected) (s : Selected) : Projection :=
  ⟨s.path, s.column.role, aliasAmong all s⟩

variable {all : List Selected}

theorem aliasAmong_of_shared {s : Selected} (hname : s.name = none) (h : Shared all s) :
    aliasAmong all s = longAlias s.path := by
  rw [aliasAmong, hname]
  exact if_pos h

theorem aliasAmong_of_not_shared {s : Selected} (hname : s.name = none) (h : ¬Shared all s) :
    aliasAmong all s = s.path.baseAlias := by
  rw [aliasAmong, hname]
  exact if_neg h

/-- Two columns without a name share their plain name when it is the same. -/
theorem shared_of_ne {s t : Selected} (hs : s ∈ all) (ht : t ∈ all) (hsname : s.name = none)
    (htname : t.name = none) (hne : s.path ≠ t.path)
    (hbase : s.path.baseAlias = t.path.baseAlias) : Shared all s := by
  have hmem : ∀ x ∈ all, x.name = none → x.path.baseAlias = s.path.baseAlias →
      x ∈ (all.filter (·.name.isNone)).filter (·.path.baseAlias == s.path.baseAlias) := by
    intro x hx hname hx'
    simp [hx, hname, hx']
  have hs' := hmem s hs hsname rfl
  have ht' := hmem t ht htname hbase.symm
  rw [Shared]
  by_contra hfew
  match hsame : (all.filter (·.name.isNone)).filter (·.path.baseAlias == s.path.baseAlias) with
  | [] =>
    rw [hsame] at hs'
    cases hs'
  | [x] =>
    rw [hsame, List.mem_singleton] at hs' ht'
    exact hne (by rw [hs', ht'])
  | x :: y :: rest =>
    rw [hsame, List.length_cons, List.length_cons] at hfew
    omega

/-- Names are given out one after the other as long as none of them is taken. -/
theorem assignAliases_go_iff {taken : List String} {ss : List Selected}
    {ps : List Projection} : assignAliases.go all taken ss = .ok ps ↔
      ps = ss.map (named all) ∧ (ss.map (aliasAmong all)).Nodup ∧
        ∀ s ∈ ss, aliasAmong all s ∉ taken := by
  induction ss generalizing taken ps with
  | nil => simp [assignAliases.go, eq_comm]
  | cons s ss ih =>
    have hstep : assignAliases.go all taken (s :: ss) = .ok ps ↔ aliasAmong all s ∉ taken ∧
        ∃ rest, assignAliases.go all (aliasAmong all s :: taken) ss = .ok rest ∧
          named all s :: rest = ps := by
      rw [assignAliases.go]
      dsimp only
      split
      case isTrue htaken =>
        exact iff_of_false (fun h => by cases h) fun h => h.1 (List.contains_iff_mem.1 htaken)
      case isFalse htaken =>
        rw [bind_ok_iff]
        simp [pure, Except.pure, named, mt List.contains_iff_mem.2 htaken]
    rw [hstep]
    rw [List.forall_mem_cons, List.map_cons, List.map_cons, List.nodup_cons]
    simp only [ih, List.mem_map, List.mem_cons, not_or]
    constructor
    · rintro ⟨htaken, rest, ⟨rfl, hnodup, hfree⟩, rfl⟩
      exact ⟨rfl, ⟨fun ⟨t, ht, heq⟩ => (hfree t ht).1 heq, hnodup⟩, htaken,
        fun t ht => (hfree t ht).2⟩
    · rintro ⟨rfl, ⟨hfirst, hnodup⟩, htaken, hfree⟩
      exact ⟨htaken, _,
        ⟨rfl, hnodup, fun t ht => ⟨fun heq => hfirst ⟨t, ht, heq⟩, hfree t ht⟩⟩, rfl⟩

theorem assignAliases_iff {ps : List Projection} :
    assignAliases all = .ok ps ↔ ps = all.map (named all) ∧ (all.map (aliasAmong all)).Nodup := by
  rw [assignAliases, assignAliases_go_iff]
  simp

/-- Selected columns of the same name through the same joins have different arguments only where
their texts show it. -/
def TellsArguments (all : List Selected) : Prop :=
  ∀ s ∈ all, ∀ t ∈ all, s.path.joins = t.path.joins → s.path.column = t.path.column →
    s.path.grain = t.path.grain → s.path.argumentText = t.path.argumentText → s.path = t.path

/-- Arguments are told where no name has a comma or a colon, and no value a comma. -/
theorem tellsArguments_of_shownApart
    (h : ∀ s ∈ all, ∀ e ∈ s.path.arguments.entries, Path.ShownApart e) : TellsArguments all := by
  intro s hs t ht hjoins hcolumn hgrain htext
  have harguments := Path.arguments_eq_of_argumentText (h s hs) (h t ht) htext
  cases hp : s.path
  cases hq : t.path
  rw [hp, hq] at hjoins hcolumn hgrain harguments
  rw [Path.mk.injEq]
  exact ⟨hjoins, hcolumn, hgrain, harguments⟩

/-- No long name is the plain name of a column that keeps it. -/
def KeepsApart (all : List Selected) : Prop :=
  ∀ s ∈ all, ∀ t ∈ all, Shared all s → ¬Shared all t → longAlias s.path ≠ t.path.baseAlias

/-- The digest tells the selected columns by their text. -/
def DigestTells (all : List Selected) : Prop :=
  ∀ s ∈ all, ∀ t ∈ all, Digest.short s.path.display = Digest.short t.path.display →
    s.path.display = t.path.display

/-- Long names are the same for paths that differ only in arguments which are shown alike. -/
theorem longAlias_eq_iff {p q : Path}
    (hdigest : Digest.short p.display = Digest.short q.display → p.display = q.display) :
    longAlias p = longAlias q ↔ p.joins = q.joins ∧ p.column = q.column ∧ p.grain = q.grain ∧
      p.argumentText = q.argumentText := by
  have htext : ∀ p : Path, (longAlias p).toList =
      (p.nameText ++ "_").toList ++ (Digest.short p.display).toList := fun p => by
    rw [Path.longAlias_eq, String.toList_append]
  constructor
  · intro h
    have hchars := congrArg String.toList h
    rw [htext, htext] at hchars
    obtain ⟨hname, hshort⟩ := List.append_inj' hchars
      ((Digest.length_short p.display).trans (Digest.length_short q.display).symm)
    rw [String.toList_append, String.toList_append, List.append_cancel_right_eq] at hname
    exact Path.eq_of_display_of_nameText (hdigest (String.toList_inj.1 hshort))
      (String.toList_inj.1 hname)
  · rintro ⟨hjoins, hcolumn, hgrain, harguments⟩
    have hdisplay : p.display = q.display := by
      rw [Path.display_eq, Path.display_eq, harguments, Path.stepText, Path.stepText, hjoins,
        hcolumn, hgrain]
    rw [Path.longAlias_eq, Path.longAlias_eq, hdisplay, Path.nameText, Path.nameText,
      Path.baseAlias, Path.baseAlias, hjoins, hcolumn, hgrain]

theorem exists_assigned_iff : (∃ ps, assignAliases all = .ok ps ∧
    ps.map (·.path) = all.map (·.path) ∧ (ps.map (·.name)).Nodup) ↔
    (all.map (aliasAmong all)).Nodup := by
  simp only [assignAliases_iff]
  constructor
  · rintro ⟨_, ⟨-, hnodup⟩, -⟩
    exact hnodup
  · intro hnodup
    exact ⟨_, ⟨rfl, hnodup⟩, by rw [List.map_map]; rfl, by rw [List.map_map]; exact hnodup⟩

section Unnamed

variable (hunnamed : ∀ s ∈ all, s.name = none) (hdigest : DigestTells all)

include hunnamed

/-- Columns that keep their plain names are told by them. -/
theorem path_eq_of_not_shared {s t : Selected} (hs : s ∈ all) (ht : t ∈ all)
    (hbase : s.path.baseAlias = t.path.baseAlias) (h : ¬Shared all s) : s.path = t.path := by
  by_contra hne
  exact h (shared_of_ne hs ht (hunnamed s hs) (hunnamed t ht) hne hbase)

include hdigest

theorem aliasAmong_eq_iff_of_shared {s t : Selected} (hs : s ∈ all) (ht : t ∈ all)
    (hshared : Shared all s) (hshared' : Shared all t) :
    aliasAmong all s = aliasAmong all t ↔ s.path.joins = t.path.joins ∧
      s.path.column = t.path.column ∧ s.path.grain = t.path.grain ∧
      s.path.argumentText = t.path.argumentText := by
  rw [aliasAmong_of_shared (hunnamed s hs) hshared, aliasAmong_of_shared (hunnamed t ht) hshared',
    longAlias_eq_iff (hdigest s hs t ht)]

/-- Where arguments are told and long names kept apart from plain ones, columns are told by their
names. -/
theorem path_eq_of_aliasAmong (htells : TellsArguments all) (hapart : KeepsApart all)
    {s t : Selected} (hs : s ∈ all) (ht : t ∈ all)
    (h : aliasAmong all s = aliasAmong all t) : s.path = t.path := by
  by_cases hshared : Shared all s <;> by_cases hshared' : Shared all t
  · rw [aliasAmong_eq_iff_of_shared hunnamed hdigest hs ht hshared hshared'] at h
    exact htells s hs t ht h.1 h.2.1 h.2.2.1 h.2.2.2
  · rw [aliasAmong_of_shared (hunnamed s hs) hshared,
      aliasAmong_of_not_shared (hunnamed t ht) hshared'] at h
    exact absurd h (hapart s hs t ht hshared hshared')
  · rw [aliasAmong_of_not_shared (hunnamed s hs) hshared,
      aliasAmong_of_shared (hunnamed t ht) hshared'] at h
    exact absurd h.symm (hapart t ht s hs hshared' hshared)
  · rw [aliasAmong_of_not_shared (hunnamed s hs) hshared,
      aliasAmong_of_not_shared (hunnamed t ht) hshared'] at h
    exact path_eq_of_not_shared hunnamed hs ht h hshared

/-- Where columns are told by their names, so are arguments by how they are shown. -/
theorem tellsArguments_of_told
    (htold : ∀ s ∈ all, ∀ t ∈ all, aliasAmong all s = aliasAmong all t → s.path = t.path) :
    TellsArguments all := by
  intro s hs t ht hjoins hcolumn hgrain harguments
  by_contra hne
  have hbase : s.path.baseAlias = t.path.baseAlias := by
    rw [Path.baseAlias, Path.baseAlias, hjoins, hcolumn]
  have hshared := shared_of_ne hs ht (hunnamed s hs) (hunnamed t ht) hne hbase
  have hshared' := shared_of_ne ht hs (hunnamed t ht) (hunnamed s hs) (Ne.symm hne) hbase.symm
  exact hne (htold s hs t ht ((aliasAmong_eq_iff_of_shared hunnamed hdigest hs ht hshared
    hshared').2 ⟨hjoins, hcolumn, hgrain, harguments⟩))

end Unnamed

/-- Different columns without names of their own get different names exactly where their texts show
their arguments, and no long name is another's plain one. -/
theorem assignAliases_unnamed_iff {all : List Selected} (hunnamed : ∀ s ∈ all, s.name = none)
    (hdifferent : (all.map (·.path)).Nodup) (hdigest : DigestTells all) :
    (∃ ps, assignAliases all = .ok ps ∧ ps.map (·.path) = all.map (·.path) ∧
      (ps.map (·.name)).Nodup) ↔ TellsArguments all ∧ KeepsApart all := by
  have hpaths : ∀ s ∈ all, ∀ t ∈ all, s.path = t.path → s = t :=
    fun s hs t ht => List.inj_on_of_nodup_map hdifferent hs ht
  rw [exists_assigned_iff, List.nodup_map_iff_inj_on hdifferent.of_map]
  constructor
  · intro hinj
    refine ⟨tellsArguments_of_told hunnamed hdigest fun s hs t ht h =>
      congrArg _ (hinj s hs t ht h), fun s hs t ht hshared hkept heq => ?_⟩
    -- a column with a long name would be one that keeps its plain name
    obtain rfl : s = t := by
      refine hinj s hs t ht ?_
      rw [aliasAmong_of_shared (hunnamed s hs) hshared,
        aliasAmong_of_not_shared (hunnamed t ht) hkept, heq]
    exact hkept hshared
  · rintro ⟨htells, hapart⟩ s hs t ht h
    exact hpaths s hs t ht (path_eq_of_aliasAmong hunnamed hdigest htells hapart hs ht h)

/-- The score of a season, or of one year of it. -/
def score : Column where
  name := "score"
  formula := "\x7b\x7b$score\x7d\x7d"
  parameters := [
    { name := "season", allowed := some ["2023", "2023,year:2024"], default := some "2023" },
    { name := "year", valueType := .integer, default := some "2022" }]
  kind := .metric (some .sum) []

/-- Games with their scores and the teams that played. -/
def games : Table where
  name := "games"
  source := .physical none "games"
  columns := [score, { name := "team", formula := "\x7b\x7b$team\x7d\x7d", kind := .dimension }]

/-- The model of the games. -/
def league : Model where
  tables := [games]

/-- The score with some of its arguments, without a name of its own. -/
def scored (given : List (String × String)) : Selected where
  path := { column := "score", arguments := Arguments.ofList given }
  column := score
  name := none

/-- Asks for selected columns of the games. -/
def gamesWith (all : List Selected) : Request where
  table := "games"
  select := all.map fun s => ⟨s.path, s.name⟩

/-- The scores of two years get two names. -/
theorem assignAliases_unnamed_years :
    let all := [scored [("year", "2023")], scored [("year", "2024")]]
    (∀ s ∈ all, s.name = none) ∧ (all.map (·.path)).Nodup ∧ DigestTells all ∧
      ∃ ps, assignAliases all = .ok ps ∧ ps.map (·.path) = all.map (·.path) ∧
        (ps.map (·.name)).Nodup := by
  intro all
  have hunnamed : ∀ s ∈ all, s.name = none := by decide +kernel
  have hdifferent : (all.map (·.path)).Nodup := by decide +kernel
  have hdigest : DigestTells all := by
    have hdigests : (all.map fun s => Digest.short s.path.display).Nodup := by decide +kernel
    exact fun s hs t ht h =>
      congrArg (fun s : Selected => s.path.display) (List.inj_on_of_nodup_map hdigests hs ht h)
  have htells : TellsArguments all := tellsArguments_of_shownApart (by decide +kernel)
  have hshared : ∀ s ∈ all, Shared all s := by
    unfold Shared
    decide +kernel
  have hapart : KeepsApart all := fun _ _ t ht _ hkept => absurd (hshared t ht) hkept
  exact ⟨hunnamed, hdifferent, hdigest,
    (assignAliases_unnamed_iff hunnamed hdifferent hdigest).2 ⟨htells, hapart⟩⟩

/-- The first season looks like the season and the year of the second score. -/
def seasons : List Selected :=
  [scored [("season", "2023,year:2024")], scored [("season", "2023"), ("year", "2024")]]

/-- Both scores of the seasons get the same name. -/
theorem assignAliases_seasons :
    league.check = .ok () ∧ (∀ s ∈ seasons, s.name = none) ∧ (seasons.map (·.path)).Nodup ∧
      DigestTells seasons ∧ assignAliases seasons = .error (.duplicateAlias "score_2378b595") ∧
      build league (gamesWith seasons) = .error (.duplicateAlias "score_2378b595") := by
  have hdigest : DigestTells seasons := by
    have hsame : ∀ s ∈ seasons, ∀ t ∈ seasons, s.path.display = t.path.display := by
      decide +kernel
    exact fun s hs t ht _ => hsame s hs t ht
  have hnamed : assignAliases seasons = .error (.duplicateAlias "score_2378b595") ∧
      build league (gamesWith seasons) = .error (.duplicateAlias "score_2378b595") := by
    decide +kernel
  exact ⟨by decide +kernel, by decide +kernel, by decide +kernel, hdigest, hnamed⟩

end Query

end Rollup
