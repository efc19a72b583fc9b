/-
Arguments told by their text. The text of arguments at a grain glues their values and the grain
together with commas. It tells them all where no name has a character that the text is glued with
and no value a comma; a value with one may look like another argument, or like a grain.
-/
import Rollup.Proofs.Model.Circles
import Rollup.Proofs.Text.Cutting

namespace Rollup

namespace Text

theorem eq_of_join {xs ys : List String} (hx : ∀ x ∈ xs, x ≠ "" ∧ ',' ∉ x.toList)
    (hy : ∀ y ∈ ys, y ≠ "" ∧ ',' ∉ y.toList) (h : join "," xs = join "," ys) : xs = ys := by
  have hempty : ∀ zs : List String, (∀ z ∈ zs, z ≠ "" ∧ ',' ∉ z.toList) → join "," zs = "" →
      zs = [] := by
    intro zs hzs hjoin
    by_contra hne
    have hsplit : split ',' (join "," zs) = zs := split_join rfl hne fun z hz => (hzs z hz).2
    rw [hjoin] at hsplit
    exact (hzs "" (hsplit ▸ List.mem_cons_self)).1 rfl
  by_cases hxs : xs = []
  · subst hxs
    exact (hempty ys hy h.symm).symm
  by_cases hys : ys = []
  · subst hys
    exact hempty xs hx h
  calc
    xs = split ',' (join "," xs) := (split_join rfl hxs fun x hx' => (hx x hx').2).symm
    _ = split ',' (join "," ys) := by rw [h]
    _ = ys := split_join rfl hys fun y hy' => (hy y hy').2

/-- What stands before the first separator is told from what follows it. -/
theorem eq_of_append_cons (sep : Char) {name name' rest rest' : List Char} (hname : sep ∉ name)
    (hname' : sep ∉ name') (h : name ++ sep :: rest = name' ++ sep :: rest') :
    name = name' ∧ rest = rest' := by
  have hbefore : ∀ {name : List Char} (rest : List Char), sep ∉ name →
      (name ++ sep :: rest).takeWhile (· != sep) = name := by
    intro name rest hname
    rw [List.takeWhile_append_of_pos fun c hc => bne_iff_ne.2 (ne_of_mem_of_not_mem hc hname)]
    simp
  have hsame := hbefore rest hname
  rw [h, hbefore _ hname'] at hsame
  subst hsame
  rw [List.append_cancel_left_eq, List.cons.injEq] at h
  exact ⟨rfl, h.2⟩

/-- A name without `=` is told from the value behind it. -/
theorem eq_of_pair {n n' v v' : String} (hn : '=' ∉ n.toList) (hn' : '=' ∉ n'.toList)
    (h : n ++ "=" ++ v = n' ++ "=" ++ v') : n = n' ∧ v = v' := by
  obtain ⟨hname, hvalue⟩ := eq_of_append_cons '=' hn hn'
    (show n.toList ++ '=' :: v.toList = n'.toList ++ '=' :: v'.toList by
      simpa using congrArg String.toList h)
  exact ⟨String.toList_inj.1 hname, String.toList_inj.1 hvalue⟩

end Text

/-- What the text of arguments at a grain is made of. -/
def Arguments.pieces (a : Arguments) (g : Option Grain) : List String :=
  a.entries.map (fun e => e.1 ++ "=" ++ e.2) ++ g.toList.map fun g => "@grain=" ++ g.name

theorem Arguments.signature_eq_join (a : Arguments) (g : Option Grain) :
    a.signature g = Text.join "," (a.pieces g) := by
  cases g with
  | none => rw [pieces, Option.toList_none, List.map_nil, List.append_nil, signature]
  | some g =>
    have hvalues : (Text.join "," (a.entries.map fun e => e.1 ++ "=" ++ e.2)).isEmpty = true ↔
        a.entries = [] := by
      cases hentries : a.entries with
      | nil => simp [Text.join]
      | cons e rest =>
        cases rest <;> simp [Text.join, String.isEmpty_iff]
    rw [pieces, Option.toList_some, List.map_singleton, signature]
    dsimp only
    split
    · rename_i hempty
      rw [hvalues.1 hempty]
      simp [Text.join]
    · rename_i hsome
      have hne : a.entries.map (fun e => e.1 ++ "=" ++ e.2) ≠ [] := fun hnil =>
        hsome (hvalues.2 (List.map_eq_nil_iff.1 hnil))
      rw [Expansion.join_append _ hne (List.cons_ne_nil _ _), String.append_assoc]
      rfl

/-- An entry whose text is no more than one, and not that of a grain. -/
def PlainEntry (e : String × String) : Prop :=
  ',' ∉ e.1.toList ∧ '=' ∉ e.1.toList ∧ '@' ∉ e.1.toList ∧ ',' ∉ e.2.toList

namespace Arguments

variable {a b : Arguments} {g g' : Grain}

theorem pieces_plain (ha : ∀ e ∈ a.entries, PlainEntry e) (g : Option Grain) :
    ∀ x ∈ a.pieces g, x ≠ "" ∧ ',' ∉ x.toList := by
  intro x hx
  rcases List.mem_append.1 hx with hx | hx
  · obtain ⟨e, he, rfl⟩ := List.mem_map.1 hx
    obtain ⟨hcomma, -, -, hvalue⟩ := ha e he
    simp [hcomma, hvalue]
  · obtain ⟨g, -, rfl⟩ := List.mem_map.1 hx
    exact ⟨by simp, g.comma_not_mem_tag⟩

theorem entries_eq_of_texts {es es' : List (String × String)} (hes : ∀ e ∈ es, PlainEntry e)
    (hes' : ∀ e ∈ es', PlainEntry e)
    (h : es.map (fun e => e.1 ++ "=" ++ e.2) = es'.map fun e => e.1 ++ "=" ++ e.2) : es = es' := by
  induction es generalizing es' with
  | nil => exact (List.map_eq_nil_iff.1 h.symm).symm
  | cons e es ih =>
    cases es' with
    | nil => cases h
    | cons e' es' =>
      rw [List.map_cons, List.map_cons, List.cons.injEq] at h
      obtain ⟨hfirst, hrest⟩ := List.forall_mem_cons.1 hes
      obtain ⟨hfirst', hrest'⟩ := List.forall_mem_cons.1 hes'
      obtain ⟨hname, hvalue⟩ := Text.eq_of_pair hfirst.2.1 hfirst'.2.1 h.1
      rw [Prod.ext hname hvalue, ih hrest hrest' h.2]

/-- An argument that is written like a grain has a name with `@`. -/
theorem tag_not_mem_pieces (ha : ∀ e ∈ a.entries, PlainEntry e) :
    "@grain=" ++ g.name ∉ a.pieces none := by
  intro hmem
  rw [pieces, Option.toList_none, List.map_nil, List.append_nil] at hmem
  obtain ⟨e, he, htext⟩ := List.mem_map.1 hmem
  obtain ⟨-, hequals, hat, -⟩ := ha e he
  have hname : e.1 = "@grain" := (Text.eq_of_pair hequals (by decide) htext).1
  rw [hname] at hat
  exact hat (by decide)

theorem tag_mem_pieces : "@grain=" ++ g.name ∈ a.pieces (some g) :=
  List.mem_append_right _ List.mem_cons_self

theorem eq_of_entries (h : a.entries = b.entries) : a = b := by
  cases a
  cases b
  rw [mk.injEq]
  exact h

theorem eq_of_signature (ha : ∀ e ∈ a.entries, PlainEntry e) (hb : ∀ e ∈ b.entries, PlainEntry e)
    {g g' : Option Grain} (h : a.signature g = b.signature g') : a = b ∧ g = g' := by
  rw [signature_eq_join, signature_eq_join] at h
  have hpieces := Text.eq_of_join (pieces_plain ha g) (pieces_plain hb g') h
  suffices heq : a.entries = b.entries ∧ g = g' from ⟨eq_of_entries heq.1, heq.2⟩
  cases g with
  | none =>
    cases g' with
    | none => exact ⟨entries_eq_of_texts ha hb (by simpa [pieces] using hpieces), rfl⟩
    | some g' => exact (tag_not_mem_pieces ha (hpieces ▸ tag_mem_pieces)).elim
  | some g =>
    cases g' with
    | none => exact (tag_not_mem_pieces hb (hpieces ▸ tag_mem_pieces)).elim
    | some g' =>
      obtain ⟨hes, htags⟩ := List.append_inj' hpieces rfl
      have htag : g.tag = g'.tag := congrArg String.toList (List.cons.inj htags).1
      refine ⟨entries_eq_of_texts ha hb hes, congrArg some (Grain.eq_of_tag_suffix ?_)⟩
      rw [htag]

end Arguments

/-- A grain that the column can be wanted at. -/
def Column.Takes (c : Column) (g : Option Grain) : Prop :=
  ∀ asked, g = some asked → (c.grain? asked).isSome = true

/-- What the column's arguments are and which grain it is wanted at can be told from their text. -/
def Column.TellsArguments (c : Column) : Prop :=
  ∀ a b g g', Expansion.Checked c.parameters a → Expansion.Checked c.parameters b → c.Takes g →
    c.Takes g' → a.signature g = b.signature g' → a = b ∧ g = g'

/-- With plain names and values without commas nothing is mistaken. -/
theorem tellsArguments_of_plain {c : Column}
    (hnames : ∀ p ∈ c.parameters, ',' ∉ p.name.toList ∧ '=' ∉ p.name.toList ∧ '@' ∉ p.name.toList)
    (hvalues : ∀ p ∈ c.parameters, ∀ v, p.check v = .ok () → ',' ∉ v.toList) :
    c.TellsArguments := by
  have hplain : ∀ {a}, Expansion.Checked c.parameters a → ∀ e ∈ a.entries, PlainEntry e := by
    intro a ha e he
    obtain ⟨p, hp, hname, hcheck⟩ := ha e he
    obtain ⟨hcomma, hequals, hat⟩ := hnames p hp
    rw [PlainEntry, ← hname]
    exact ⟨hcomma, hequals, hat, hvalues p hp _ hcheck⟩
  exact fun a b g g' ha hb _ _ => Arguments.eq_of_signature (hplain ha) (hplain hb)

end Rollup
