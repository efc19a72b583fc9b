/-
Expanding formulas on a stack of frames. Each step takes the next segment of the top frame: text is
added to what the frame has come to, and a column is opened in a frame of its own. A finished frame
hands its text to the frame below. A column that is already being expanded is not opened again, and
no more frames are opened than the model allows, so the expansion ends.
-/
import Rollup.Expansion.Frame
import Rollup.Sql.Truncation

namespace Rollup

/-- For which dialect formulas are expanded. Where a lenient expansion misses the value of an
argument it takes the argument's name instead. -/
structure Mode where
  dialect : Dialect
  lenient : Bool := false
  deriving DecidableEq, Repr

/-- What a segment stands for. -/
inductive Action (m : Model) where
  | text (sql : String)
  | enter (f : Frame.Opened m)

/-- The literal of an argument value. Booleans have the form of the dialect, and all other values
are checked text. -/
def argumentLiteral (d : Dialect) (p : Option Parameter) (value : String) : String :=
  match p.map Parameter.valueType with
  | some .boolean => d.boolLiteral (value == "true")
  | _ => value

/-- The value of a table argument: of the scope at the root, and the default elsewhere. -/
def tableValue {m : Model} (mode : Mode) (scope : Scope m) (f : Frame m) (context name : String) :
    Except CompileError String :=
  let value := match f.path with
    | [] => scope.arguments.get? name
    | _ => (f.table.1.parameter? name).bind (·.default)
  match value with
  | some v => .ok (argumentLiteral mode.dialect (f.table.1.parameter? name) v)
  | none =>
    if mode.lenient then .ok name
    else .error (.unresolvable f.table.1.name (context ++ "." ++ name) (.noArgumentValue f.label))

/-- A database column of the table a path leads to. -/
def physicalColumn (d : Dialect) (root : Table) (path : JoinPath) (name : String) : String :=
  d.quoteName (aliasFor d root path) ++ "." ++ d.quoteName name

/-- What a segment of a frame stands for, and the join path it reads through. -/
def Segment.action {m : Model} (mode : Mode) (scope : Scope m) (f : Frame m) :
    Segment → Except CompileError (JoinPath × Action m)
  | .literal text => .ok ([], .text text)
  | .reference joins (.physical name) => do
    let (_, path) ← walk (stepsText joins ("$" ++ name)) f.table f.path joins
    return (path, .text (physicalColumn mode.dialect scope.root.1 path name))
  | .reference joins (.logical name) => do
    let reference := stepsText joins name
    let (t, path) ← walk reference f.table f.path joins
    return (path, .enter (← openColumn t path name .empty f.arguments none reference))
  | .pinned joins name values => do
    let reference := "sql " ++ stepsText joins name
    let (t, path) ← walk reference f.table f.path joins
    return (path, .enter (← openColumn t path name values f.arguments none reference))
  | .columnArgument name =>
    match f.arguments.get? name with
    | some v =>
      .ok ([], .text (argumentLiteral mode.dialect (f.column.bind (·.1.parameter? name)) v))
    | none => (tableValue mode scope f "$$column.args" name).map ([], .text ·)
  | .tableArgument name => (tableValue mode scope f "$$table.args" name).map ([], .text ·)
  | .columnBase =>
    match f.base with
    | some base => .ok ([], .text base)
    | none => .error (.unresolvable f.table.1.name "$$column.expr" (.outsideGrain f.label))

/-- The frame for the formula of a grain, in the place of the finished frame of its column. -/
def Frame.atGrain {m : Model} (f : Frame m) (g : Grain) (rest : Template) : Frame m :=
  { f with rest, out := "", base := some f.out, grain := none,
           label := f.label ++ "[" ++ g.name ++ "]" }

/-- Applies a grain to a finished frame: by the column's own formula, or by the dialect. -/
def Frame.applyGrain {m : Model} (mode : Mode) (f : Frame m) (g : Grain) :
    Except CompileError (Action m) :=
  match f.column with
  | none => .ok (.text f.out)
  | some c =>
    match hd : c.1.grain? g with
    | some d => match hf : d.formula with
      | some formula => do
        let u ← readTemplate f.table.1 (c.1.name ++ "[grain:" ++ g.name ++ "]") formula
        return .enter ⟨f.atGrain g u.1, c.grainFormula_le (List.mem_of_find?_eq_some hd) hf u.2⟩
      | none => truncated c.1
    | none => truncated c.1
where
  truncated (c : Column) : Except CompileError (Action m) :=
    match Sql.truncate? mode.dialect g f.out with
    | some sql => .ok (.text sql)
    | none => .error (.unsupported mode.dialect (.grain g c.name))

theorem applyGrain_grain {m : Model} {mode : Mode} {f : Frame m} {g : Grain}
    {opened : Frame.Opened m} (h : f.applyGrain mode g = .ok (.enter opened)) :
    opened.1.grain = none := by
  have ht : ∀ c, Frame.applyGrain.truncated mode f g c ≠ .ok (.enter opened) := by
    intro c
    unfold Frame.applyGrain.truncated
    split <;> simp
  unfold Frame.applyGrain at h
  split at h
  · simp at h
  · split at h
    · split at h
      · simp only [bind, Except.bind] at h
        split at h
        · cases h
        · simp only [pure, Except.pure, Except.ok.injEq, Action.enter.injEq] at h
          subst h
          rfl
      · exact absurd h (ht _)
    · exact absurd h (ht _)

namespace Expansion

/-- The frames being expanded, the keys they are known by, and the join paths read so far. -/
structure State (m : Model) where
  top : Frame m
  below : List (Frame m)
  inProgress : List FrameKey
  joins : List JoinPath

/-- A step leads to a further state or to the end. -/
inductive Outcome (m : Model) where
  | next (s : State m)
  | done (f : Fragment)

/-- The labels of the frames from the bottom to the top, join conditions left out. -/
def State.chain {m : Model} (s : State m) : List String :=
  ((s.top :: s.below).reverse.filter (·.key.isSome)).map (·.label)

/-- Refuses a frame that is being expanded already, and one too many. -/
def State.checkEnter {m : Model} (s : State m) (f : Frame m) : Except CompileError Unit :=
  if f.key.any s.inProgress.contains then .error (.cycle (s.chain ++ [f.label]))
  else if m.maxDepth ≤ s.below.length + 1 then
    .error (.tooDeep (s.chain ++ [f.label]) m.maxDepth)
  else .ok ()

/-- Hands the text of a finished top frame to the frame below. -/
def State.finish {m : Model} (s : State m) (out : String) : Outcome m :=
  match s.below with
  | [] => .done ⟨out, s.joins⟩
  | parent :: below =>
    .next { s with
      top := { parent with out := parent.out ++ out }
      below
      inProgress := match s.top.key with
        | some k => s.inProgress.erase k
        | none => s.inProgress }

/-- One step of the expansion. -/
def step {m : Model} (mode : Mode) (scope : Scope m) (s : State m) :
    Except CompileError (Outcome m) :=
  match s.top.rest with
  | segment :: rest => do
    let top := { s.top with rest }
    let (path, action) ← segment.action mode scope s.top
    let joins := path.record s.joins
    match action with
    | .text sql => return .next { s with top := { top with out := top.out ++ sql }, joins }
    | .enter f =>
      s.checkEnter f.1
      return .next ⟨f.1, top :: s.below, f.1.key.toList ++ s.inProgress, joins⟩
  | [] => match s.top.grain with
    | none => .ok (s.finish s.top.out)
    | some g => do
      match ← s.top.applyGrain mode g with
      | .text sql => return s.finish sql
      | .enter f => return .next { s with top := f.1 }

/-! ## Termination -/

/-- The steps a frame may still take on its own, when no template is longer than `longest`. -/
def Frame.work {m : Model} (longest : Nat) (f : Frame m) : Nat :=
  f.rest.length + (if f.grain.isSome then longest + 1 else 0) + 1

/-- A bound on the steps of a stack. A frame counts as much as all frames that may come to stand
on it. -/
def stackWork {m : Model} : List (Frame m) → Nat
  | [] => 0
  | f :: below =>
    Frame.work m.longest f * Nat.pow (2 * m.longest + 3) (m.maxDepth - (below.length + 1)) +
      stackWork below

/-- A bound on the steps that are left to a state; every step lowers it. -/
def State.work {m : Model} (s : State m) : Nat :=
  stackWork (s.top :: s.below)

theorem pow_pos_of_pos {b : Nat} (n : Nat) (h : 0 < b) : 0 < Nat.pow b n :=
  Nat.pow_pos h

theorem finish_work_lt {m : Model} {s s' : State m} {out : String}
    (h : s.finish out = .next s') : s'.work < s.work := by
  unfold State.finish at h
  split at h
  · cases h
  · rename_i parent below hb
    cases h
    simp only [State.work, hb, stackWork, Frame.work]
    have := pow_pos_of_pos (m.maxDepth - ((parent :: below).length + 1))
      (show 0 < 2 * m.longest + 3 by omega)
    have := Nat.le_mul_of_pos_left
      (Nat.pow (2 * m.longest + 3) (m.maxDepth - ((parent :: below).length + 1)))
      (show 0 < s.top.rest.length + (if s.top.grain.isSome then m.longest + 1 else 0) + 1 by omega)
    omega

/-- Every step brings the end nearer. -/
theorem step_work_lt {m : Model} {mode : Mode} {scope : Scope m} {s s' : State m}
    (h : step mode scope s = .ok (.next s')) : s'.work < s.work := by
  have hk : 0 < 2 * m.longest + 3 := by omega
  unfold step at h
  split at h
  · rename_i segment rest hrest
    simp only [bind, Except.bind] at h
    split at h
    · cases h
    · rename_i r hr
      obtain ⟨path, action⟩ := r
      simp only at h
      cases action with
      | text sql =>
        simp only [pure, Except.pure, Except.ok.injEq, Outcome.next.injEq] at h
        subst h
        simp only [State.work, stackWork, Frame.work, hrest, List.length_cons]
        have := pow_pos_of_pos (m.maxDepth - (s.below.length + 1)) hk
        apply Nat.add_lt_add_right
        exact Nat.mul_lt_mul_of_pos_right (by omega) this
      | enter f =>
        simp only at h
        split at h
        · cases h
        · rename_i hc
          simp only [pure, Except.pure, Except.ok.injEq, Outcome.next.injEq] at h
          subst h
          have hd : s.below.length + 1 < m.maxDepth := by
            unfold State.checkEnter at hc
            split at hc
            · cases hc
            · split at hc
              · cases hc
              · omega
          obtain ⟨e, he⟩ : ∃ e, m.maxDepth - (s.below.length + 1) = e + 1 :=
            ⟨m.maxDepth - (s.below.length + 2), by omega⟩
          have he' : m.maxDepth - (s.below.length + 1 + 1) = e := by omega
          simp only [State.work, stackWork, Frame.work, hrest, List.length_cons, he, he']
          have hf := f.2
          have hpos := pow_pos_of_pos e hk
          have h1 : (f.1.rest.length + (if f.1.grain.isSome then m.longest + 1 else 0) + 1) ≤
              2 * m.longest + 2 := by split <;> omega
          generalize (f.1.rest.length + (if f.1.grain.isSome then m.longest + 1 else 0) + 1) = a at h1
          generalize (if s.top.grain.isSome = true then m.longest + 1 else 0) = g
          rw [show Nat.pow (2 * m.longest + 3) (e + 1) =
            Nat.pow (2 * m.longest + 3) e * (2 * m.longest + 3) from rfl]
          generalize Nat.pow (2 * m.longest + 3) e = p at hpos
          have h2 : a * p < p * (2 * m.longest + 3) := by
            rw [Nat.mul_comm p]
            exact Nat.mul_lt_mul_of_pos_right (by omega) hpos
          generalize p * (2 * m.longest + 3) = q at h2
          have h3 : (rest.length + 1 + g + 1) * q = (rest.length + g + 1) * q + q := by
            rw [show rest.length + 1 + g + 1 = (rest.length + g + 1) + 1 by omega, Nat.add_mul,
              Nat.one_mul]
          omega
  · rename_i hrest
    split at h
    · simp only [Except.ok.injEq] at h
      exact finish_work_lt h
    · rename_i g hg
      simp only [bind, Except.bind] at h
      split at h
      · cases h
      · rename_i action _
        cases action with
        | text sql =>
          simp only [pure, Except.pure, Except.ok.injEq] at h
          exact finish_work_lt h
        | enter f =>
          simp only [pure, Except.pure, Except.ok.injEq, Outcome.next.injEq] at h
          subst h
          have hn := applyGrain_grain (by assumption)
          have hf := f.2
          simp only [State.work, stackWork, Frame.work, hn, hg, hrest, List.length_nil]
          apply Nat.add_lt_add_right
          exact Nat.mul_lt_mul_of_pos_right (by simp; omega) (pow_pos_of_pos _ hk)

/-- Steps until the stack is empty. -/
def run {m : Model} (mode : Mode) (scope : Scope m) (s : State m) : Except CompileError Fragment :=
  match _h : step mode scope s with
  | .error e => .error e
  | .ok (.done f) => .ok f
  | .ok (.next s') => run mode scope s'
termination_by s.work
decreasing_by exact step_work_lt ‹_›

/-- Expands a frame that stands alone on the stack. -/
def expand {m : Model} (mode : Mode) (scope : Scope m) (f : Frame m) :
    Except CompileError Fragment :=
  run mode scope ⟨f, [], f.key.toList, f.path.record []⟩

end Expansion

end Rollup
