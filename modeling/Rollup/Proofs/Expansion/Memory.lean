/-
The memory of expansions. What is remembered under a key was found by an expansion with that key, so
a column that is looked up comes to what such an expansion came to. An accepted model was tried out
with one memory for all its tables; their names differ, so no table was given what another had.
-/
import Rollup.Model.Check
import Rollup.Proofs.Expansion.Stack
import Mathlib.Data.List.Nodup

namespace Rollup

section

variable {m : Model} {mode : Mode} {P : Scope m → Arguments → Prop} {memo memo' : Memo}

/-- Only what is not remembered is expanded, so what a column fails with its expansion fails with. -/
theorem resolveColumn_error {scope : Scope m} {path : JoinPath} {column : String}
    {arguments : Arguments} {grain : Option Grain} {e : CompileError}
    (h : (resolveColumn mode scope path column arguments grain).run memo = .error e) :
    expandColumn mode scope path column arguments grain = .error e := by
  unfold resolveColumn at h
  rw [StateT.run_bind] at h
  rcases bind_error h with hget | ⟨⟨_, _⟩, hget, h⟩
  · cases hget
  cases hget
  split at h
  · cases h
  · rw [StateT.run_bind] at h
    rcases bind_error h with hlift | ⟨_, -, h⟩
    · rcases bind_error hlift with hfail | ⟨_, -, hpure⟩
      · exact hfail
      · cases hpure
    · cases h

/-- What the expansion of a column is remembered under. -/
def expansionKey (scope : Scope m) (path : JoinPath) (column : String) (arguments : Arguments)
    (grain : Option Grain) : MemoKey :=
  ⟨scope.root.1.name, scope.arguments.signature none, path, column, arguments.signature none, grain⟩

/-- A column is found in the memory, which stays as it is, or it is expanded and remembered. -/
theorem resolveColumn_cases {scope : Scope m} {path : JoinPath} {column : String}
    {arguments : Arguments} {grain : Option Grain} {f : Fragment}
    (h : (resolveColumn mode scope path column arguments grain).run memo = .ok (f, memo')) :
    memo.lookup (expansionKey scope path column arguments grain) = some f ∧ memo' = memo ∨
      memo.lookup (expansionKey scope path column arguments grain) = none ∧
        expandColumn mode scope path column arguments grain = .ok f ∧
        memo' = (expansionKey scope path column arguments grain, f) :: memo := by
  unfold resolveColumn at h
  obtain ⟨_, _, hget, h⟩ := run_bind_ok h
  cases hget
  split at h
  · rename_i g hg
    cases h
    exact .inl ⟨hg, rfl⟩
  · rename_i hnone
    obtain ⟨g, _, hlift, h⟩ := run_bind_ok h
    obtain ⟨g', hg, hlift⟩ := bind_ok hlift
    cases hlift
    obtain ⟨_, _, hmodify, h⟩ := run_bind_ok h
    cases hmodify
    cases h
    exact .inr ⟨hnone, hg, rfl⟩

/-- What is remembered was found under its key, in scopes and with arguments of a kind. -/
def Remembers (mode : Mode) (P : Scope m → Arguments → Prop) (memo : Memo) : Prop :=
  ∀ e ∈ memo, ∃ scope path column arguments grain, P scope arguments ∧
    e.1 = expansionKey scope path column arguments grain ∧
    expandColumn mode scope path column arguments grain = .ok e.2

theorem remembers_nil : Remembers mode P [] :=
  fun _ he => by cases he

/-- A column comes to what an expansion with its key came to. -/
theorem resolveColumn_run {scope : Scope m} {path : JoinPath} {column : String}
    {arguments : Arguments} {grain : Option Grain} {f : Fragment} (hmemo : Remembers mode P memo)
    (hP : P scope arguments)
    (h : (resolveColumn mode scope path column arguments grain).run memo = .ok (f, memo')) :
    Remembers mode P memo' ∧ ∃ scope' arguments', P scope' arguments' ∧
      expansionKey scope' path column arguments' grain =
        expansionKey scope path column arguments grain ∧
      expandColumn mode scope' path column arguments' grain = .ok f := by
  rcases resolveColumn_cases h with ⟨hg, rfl⟩ | ⟨-, hg, rfl⟩
  · obtain ⟨before, after, hmem, -⟩ := List.lookup_eq_some_iff.1 hg
    obtain ⟨scope', path', column', arguments', grain', hP', hkey, hf⟩ := hmemo (_, f)
      (hmem ▸ List.mem_append_right _ List.mem_cons_self)
    obtain ⟨rfl, rfl, rfl⟩ : path' = path ∧ column' = column ∧ grain' = grain := by
      simp only [expansionKey, MemoKey.mk.injEq] at hkey
      exact ⟨hkey.2.2.1.symm, hkey.2.2.2.1.symm, hkey.2.2.2.2.2.symm⟩
    exact ⟨hmemo, scope', arguments', hP', hkey.symm, hf⟩
  · refine ⟨fun e he => ?_, scope, arguments, hP, rfl, hg⟩
    rcases List.mem_cons.1 he with rfl | he
    · exact ⟨scope, path, column, arguments, grain, hP, rfl, hg⟩
    · exact hmemo e he

end

/-! ## The trial of a model -/

namespace Model

theorem nodup_of_firstRepeated? {seen names : List String}
    (h : firstRepeated? seen names = none) : names.Nodup ∧ ∀ n ∈ names, n ∉ seen := by
  induction names generalizing seen with
  | nil => exact ⟨List.nodup_nil, fun _ hn => by cases hn⟩
  | cons n rest ih =>
    unfold firstRepeated? at h
    split at h
    · cases h
    · rename_i hnew
      obtain ⟨hnodup, hrest⟩ := ih h
      refine ⟨List.nodup_cons.2 ⟨fun hn => hrest n hn List.mem_cons_self, hnodup⟩, ?_⟩
      intro k hk
      rcases List.mem_cons.1 hk with rfl | hk
      · exact fun hseen => hnew (List.contains_iff_mem.2 hseen)
      · exact fun hseen => hrest k hk (List.mem_cons_of_mem _ hseen)

variable {m : Model}

/-- No two tables of a checked model have one name. -/
theorem tables_nodup_of_check (h : m.check = .ok ()) : (m.tables.map (·.name)).Nodup := by
  unfold check at h
  dsimp only at h
  split at h
  · cases h
  · rename_i hnames
    exact (nodup_of_firstRepeated? hnames).1

theorem nodup_of_checkEach {α : Type} {name : α → String}
    {check : List String → α → Except ModelFault Unit}
    (hnew : ∀ earlier a, check earlier a = .ok () → name a ∉ earlier) {earlier : List String}
    {as : List α} (h : checkEach name check earlier as = .ok ()) :
    (as.map name).Nodup ∧ ∀ a ∈ as, name a ∉ earlier := by
  induction as generalizing earlier with
  | nil => exact ⟨List.nodup_nil, fun _ ha => by cases ha⟩
  | cons a as ih =>
    obtain ⟨_, ha, has⟩ := bind_ok h
    obtain ⟨hnodup, hlater⟩ := ih has
    refine ⟨List.nodup_cons.2 ⟨fun hmem => ?_, hnodup⟩, fun b hb => ?_⟩
    · obtain ⟨b, hb, hname⟩ := List.mem_map.1 hmem
      exact hlater b hb (hname ▸ List.mem_cons_self)
    · rcases List.mem_cons.1 hb with rfl | hb
      · exact hnew earlier b ha
      · exact fun hmem => hlater b hb (List.mem_cons_of_mem _ hmem)

theorem ok_of_checkEach {α : Type} {name : α → String}
    {check : List String → α → Except ModelFault Unit} {earlier : List String} {as : List α}
    (h : checkEach name check earlier as = .ok ()) :
    ∀ a ∈ as, ∃ earlier, check earlier a = .ok () := by
  induction as generalizing earlier with
  | nil => exact fun a ha => (List.not_mem_nil ha).elim
  | cons a as ih =>
    obtain ⟨_, ha, has⟩ := bind_ok h
    exact List.forall_mem_cons.2 ⟨⟨earlier, ha⟩, ih has⟩

/-- The columns of a table of a checked model were checked one after the other. -/
theorem columns_checked (h : m.check = .ok ()) (t : m.Member) :
    checkEach (·.name) (checkColumn t.1) [] t.1.columns = .ok () := by
  unfold check at h
  dsimp only at h
  split at h
  · cases h
  obtain ⟨_, htables, -⟩ := bind_ok h
  have htable : m.checkTable t.1 = .ok () := by
    cases hall : m.tables.forM m.checkTable with
    | error e =>
      rw [hall] at htables
      cases htables
    | ok _ => exact forM_ok hall t.1 t.2
  obtain ⟨⟨⟩, hcolumns, -⟩ := bind_ok htable
  exact hcolumns

/-- No two columns of a table of a checked model have one name. -/
theorem columns_nodup_of_check (h : m.check = .ok ()) (t : m.Member) :
    (t.1.columns.map (·.name)).Nodup := by
  have hcolumns := columns_checked h t
  refine (nodup_of_checkEach (fun earlier c hc hmem => ?_) hcolumns).1
  have hseen : earlier.contains c.name = true := List.contains_iff_mem.2 hmem
  unfold checkColumn at hc
  rw [hseen] at hc
  split at hc <;> cases hc

/-- So every column is found by its name. -/
theorem column?_of_mem (h : m.check = .ok ()) {t : m.Member} {c : Column}
    (hc : c ∈ t.1.columns) : ∃ d : m.AnyColumn, d.1 = c ∧ Member.column? t c.name = some d := by
  have hfind : t.1.column? c.name = some c := by
    cases hfound : t.1.column? c.name with
    | none => simpa using List.find?_eq_none.1 hfound c hc
    | some d =>
      have hname : d.name = c.name := by simpa using List.find?_some hfound
      rw [List.inj_on_of_nodup_map (columns_nodup_of_check h t)
        (List.mem_of_find?_eq_some hfound) hc hname]
  unfold Member.column?
  split
  · rename_i d hd
    exact ⟨_, Option.some.inj (hd.symm.trans hfind), rfl⟩
  · rename_i hnone
    cases hnone.symm.trans hfind

theorem member_eq_of_name (hnames : (m.tables.map (·.name)).Nodup) {t u : m.Member}
    (h : t.1.name = u.1.name) : t = u :=
  Subtype.ext (List.inj_on_of_nodup_map hnames t.2 u.2 h)

/-- The scopes and arguments that a model is tried out with. -/
def Tried (scope : Scope m) (arguments : Arguments) : Prop :=
  (∃ t, scope = Scope.of t .empty) ∧ arguments = .empty

theorem resolveColumn_tried (hnames : (m.tables.map (·.name)).Nodup) {t : m.Member}
    {column : String} {grain : Option Grain} {f : Fragment} {memo memo' : Memo}
    (hmemo : Remembers trial (Tried (m := m)) memo)
    (h : (resolveColumn trial (Scope.of t .empty) [] column .empty grain).run memo =
      .ok (f, memo')) :
    Remembers trial (Tried (m := m)) memo' ∧
      expandColumn trial (Scope.of t .empty) [] column .empty grain = .ok f := by
  obtain ⟨hmemo', scope, arguments, ⟨⟨u, rfl⟩, rfl⟩, hkey, hf⟩ :=
    resolveColumn_run hmemo ⟨⟨t, rfl⟩, rfl⟩ h
  -- the table of the key is known by its name
  have hname : u.1.name = t.1.name := (MemoKey.mk.injEq .. ▸ hkey).1
  obtain rfl := member_eq_of_name hnames hname
  exact ⟨hmemo', hf⟩

/-- The columns of a table come to something when they are tried out, without a grain and at each
grain that has a formula. -/
def ColumnsExpand (t : m.Member) : Prop :=
  ∀ c ∈ t.1.columns,
    (∃ f, expandColumn trial (Scope.of t .empty) [] c.name .empty none = .ok f) ∧
    ∀ d ∈ c.grains, d.formula.isSome = true →
      ∃ f, expandColumn trial (Scope.of t .empty) [] c.name .empty (some d.grain) = .ok f

theorem expandTable_run (hnames : (m.tables.map (·.name)).Nodup) {t : m.Member}
    {memo memo' : Memo} (hmemo : Remembers trial (Tried (m := m)) memo)
    (h : (expandTable t).run memo = .ok ((), memo')) :
    Remembers trial (Tried (m := m)) memo' ∧ ColumnsExpand t := by
  obtain ⟨_, memo₁, hcolumns, hjoins⟩ := run_bind_ok h
  have hgrain : ∀ (c : Column) (d : GrainDef) memo memo', Remembers trial (Tried (m := m)) memo →
      (do let _ ← resolveColumn trial (Scope.of t .empty) [] c.name .empty (some d.grain) :
        Expanding Unit).run memo = .ok ((), memo') →
      Remembers trial (Tried (m := m)) memo' ∧ ∃ f,
        expandColumn trial (Scope.of t .empty) [] c.name .empty (some d.grain) = .ok f := by
    intro c d memo memo' hmemo h
    obtain ⟨f, _, hf, h⟩ := run_bind_ok h
    cases h
    exact (resolveColumn_tried hnames hmemo hf).imp_right fun hf => ⟨f, hf⟩
  have hcolumn : ∀ (c : Column) memo memo', Remembers trial (Tried (m := m)) memo →
      (do let _ ← resolveColumn trial (Scope.of t .empty) [] c.name .empty none
          (c.grains.filter (·.formula.isSome)).forM fun d => do
            let _ ← resolveColumn trial (Scope.of t .empty) [] c.name .empty (some d.grain) :
        Expanding Unit).run memo = .ok ((), memo') →
      Remembers trial (Tried (m := m)) memo' ∧
        (∃ f, expandColumn trial (Scope.of t .empty) [] c.name .empty none = .ok f) ∧
        ∀ d ∈ c.grains, d.formula.isSome = true →
          ∃ f, expandColumn trial (Scope.of t .empty) [] c.name .empty (some d.grain) = .ok f := by
    intro c memo memo' hmemo h
    obtain ⟨f, memo₁, hf, h⟩ := run_bind_ok h
    obtain ⟨hmemo₁, hf⟩ := resolveColumn_tried hnames hmemo hf
    obtain ⟨hmemo', hall⟩ := run_forM_invariant
      (fun d _ memo memo' hmemo h => (hgrain c d memo memo' hmemo h).1) hmemo₁ h
    refine ⟨hmemo', ⟨f, hf⟩, fun d hd hformula => ?_⟩
    obtain ⟨memo, memo', hmemo, h⟩ := hall d (List.mem_filter.2 ⟨hd, hformula⟩)
    exact (hgrain c d memo memo' hmemo h).2
  obtain ⟨hmemo₁, hall⟩ := run_forM_invariant
    (fun c _ memo memo' hmemo h => (hcolumn c memo memo' hmemo h).1) hmemo hcolumns
  -- conditions of joins are not remembered
  obtain ⟨hmemo', -⟩ := run_forM_invariant (I := Remembers trial (Tried (m := m)))
    (fun j _ memo memo' hmemo h => by
      obtain ⟨f, _, hlift, h⟩ := run_bind_ok h
      obtain ⟨_, -, hlift⟩ := bind_ok hlift
      cases hlift
      cases h
      exact hmemo) hmemo₁ hjoins
  refine ⟨hmemo', fun c hc => ?_⟩
  obtain ⟨memo, memo', hmemo, h⟩ := hall c hc
  exact (hcolumn c memo memo' hmemo h).2

/-- In an accepted model every column was tried out. -/
theorem columns_of_check (h : m.check = .ok ()) (t : m.Member) : ColumnsExpand t := by
  have hnames := tables_nodup_of_check h
  unfold check at h
  dsimp only at h
  split at h
  · cases h
  obtain ⟨_, -, h⟩ := bind_ok h
  obtain ⟨⟨_, memo⟩, htables, -⟩ := map_ok h
  obtain ⟨-, hall⟩ := run_forM_invariant
    (fun u _ _ _ hmemo hu => (expandTable_run hnames hmemo hu).1) remembers_nil htables
  obtain ⟨_, _, hmemo, htable⟩ := hall t (List.mem_attach _ _)
  exact (expandTable_run hnames hmemo htable).2

end Model

end Rollup
