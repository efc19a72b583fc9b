/-
Every expansion ends, and within the depth limit. A frame may open further ones on ever longer paths,
each with a key of its own, so refusing keys in progress is not enough for that: what comes to an end
is the room on the stack, and below a full stack the templates that are left to read. A model need
not be checked for this, and the first frame may be any frame.
-/
import Rollup.Proofs.Expansion.Depth

namespace Rollup

namespace Expansion

section

variable {m : Model} {mode : Mode} {scope : Scope m}

/-- The state an expansion starts in: `expand` runs from it with the joins of the frame's path. -/
def State.start (f : Frame m) (joins : List JoinPath) : State m :=
  ⟨f, [], f.key.toList, joins⟩

variable (mode scope) in
/-- A number of steps leads from one state to another. -/
inductive Steps : Nat → State m → State m → Prop
  | none {s : State m} : Steps 0 s s
  | more {n : Nat} {s s' s'' : State m} (hsteps : Steps n s s')
    (hstep : step mode scope s' = .ok (.next s'')) : Steps (n + 1) s s''

theorem Steps.front {n : Nat} {s s' s'' : State m} (hstep : step mode scope s = .ok (.next s'))
    (h : Steps mode scope n s' s'') : Steps mode scope (n + 1) s s'' := by
  induction h with
  | none => exact .more .none hstep
  | more _ hlast ih => exact .more (ih hstep) hlast

/-! ## The number of steps -/

theorem Steps.work_le {n : Nat} {s s' : State m} (h : Steps mode scope n s s') :
    n + s'.work ≤ s.work := by
  induction h with
  | none => exact Nat.le_of_eq (Nat.zero_add _)
  | more _ hstep ih =>
    have hless := step_work_lt hstep
    omega

theorem State.work_pos (s : State m) : 0 < s.work := by
  have htop : 0 < Frame.work m.longest s.top := Nat.succ_pos _
  have hroom : 0 < Nat.pow (2 * m.longest + 3) (m.maxDepth - (s.below.length + 1)) :=
    pow_pos_of_pos _ (Nat.succ_pos _)
  exact Nat.add_pos_left (Nat.mul_pos htop hroom) _

theorem State.work_start (f : Frame m) (joins : List JoinPath) :
    (State.start f joins).work =
      Frame.work m.longest f * Nat.pow (2 * m.longest + 3) (m.maxDepth - 1) := by
  simp only [State.work, State.start, stackWork, List.length_nil, Nat.zero_add, Nat.add_zero]

/-- A run takes steps to a state that it ends in, and has its result from there. -/
theorem stops_of_run (s : State m) :
    ∃ n s', Steps mode scope n s s' ∧ step mode scope s' = (run mode scope s).map .done := by
  induction s using run.induct mode scope with
  | case1 s e hstep =>
    refine ⟨0, s, .none, ?_⟩
    rw [run, hstep]
    rfl
  | case2 s out hstep =>
    refine ⟨0, s, .none, ?_⟩
    rw [run, hstep]
    rfl
  | case3 s s' hstep ih =>
    obtain ⟨n, s'', hsteps, hend⟩ := ih
    refine ⟨n + 1, s'', hsteps.front hstep, ?_⟩
    rw [run, hstep]
    exact hend

/-! ## What steps keep -/

/-- No more frames stand on the stack than the model allows, or the first one alone, and the keys in
progress are those of the frames on the stack, each of one frame. -/
structure State.Bounded (s : State m) : Prop where
  room : s.below.length + 1 ≤ max 1 m.maxDepth
  keyed : State.Keyed s
  distinct : s.inProgress.Nodup

theorem bounded_start (f : Frame m) (joins : List JoinPath) :
    State.Bounded (State.start f joins) := by
  have hkeys : f.key.toList = [f].filterMap (·.key) := by
    rw [List.filterMap_cons]
    cases f.key <;> rfl
  refine ⟨Nat.le_max_left _ _, hkeys, ?_⟩
  show f.key.toList.Nodup
  cases f.key with
  | none => exact List.nodup_nil
  | some k => exact List.nodup_singleton k

/-- A key that is let in is not in progress. -/
theorem new_of_checkEnter {s : State m} {f : Frame m} (h : s.checkEnter f = .ok ()) :
    ∀ k ∈ f.key, k ∉ s.inProgress := by
  intro k hk hmem
  unfold State.checkEnter at h
  rw [if_pos] at h
  · cases h
  · exact (Option.any_eq_true _ _).2 ⟨k, hk, List.contains_iff_mem.2 hmem⟩

theorem State.Bounded.enter {s : State m} (h : State.Bounded s) {f : Frame m}
    (hcheck : s.checkEnter f = .ok ()) (rest : Template) (joins : List JoinPath) :
    State.Bounded ⟨f, { s.top with rest } :: s.below, f.key.toList ++ s.inProgress, joins⟩ := by
  have hroom := room_of_checkEnter hcheck
  have hnew := new_of_checkEnter hcheck
  refine ⟨?_, h.keyed.enter f rest joins, ?_⟩
  · show s.below.length + 1 + 1 ≤ max 1 m.maxDepth
    omega
  · show (f.key.toList ++ s.inProgress).Nodup
    cases hkey : f.key with
    | none => exact h.distinct
    | some k => exact List.nodup_cons.2 ⟨hnew k hkey, h.distinct⟩

theorem State.Bounded.finish {s s' : State m} (h : State.Bounded s) {sql : String}
    (hfinish : s.finish sql = .next s') : State.Bounded s' := by
  unfold State.finish at hfinish
  split at hfinish
  · cases hfinish
  · rename_i parent below hbelow
    cases hfinish
    have hroom := h.room
    rw [hbelow, List.length_cons] at hroom
    have hkeyed := h.keyed.finish hbelow
    refine ⟨?_, hkeyed, ?_⟩
    · show below.length + 1 ≤ max 1 m.maxDepth
      omega
    · dsimp only
      cases s.top.key with
      | none => exact h.distinct
      | some k => exact h.distinct.erase k

theorem bounded_of_moves {s s' : State m} (h : State.Bounded s)
    (hmoves : Moves mode scope s (.next s')) : State.Bounded s' := by
  generalize ho : Outcome.next s' = o at hmoves
  cases hmoves with
  | text hrest haction =>
    cases ho
    exact ⟨h.room, h.keyed, h.distinct⟩
  | enter hrest haction hcheck =>
    cases ho
    exact h.enter hcheck _ _
  | finish hrest hgrain => exact h.finish ho.symm
  | truncate hrest hgrain hsql => exact h.finish ho.symm
  | regrain hrest hgrain hopened =>
    -- the frame of a grain takes the place of its column's, so there is room for it
    cases ho
    exact ⟨h.room, h.keyed.regrain (applyGrain_key hopened), h.distinct⟩

theorem bounded_of_steps {n : Nat} {s s' : State m} (hsteps : Steps mode scope n s s')
    (h : State.Bounded s) : State.Bounded s' := by
  induction hsteps with
  | none => exact h
  | more _ hstep ih => exact bounded_of_moves (ih h) (moves_of_step hstep)

theorem State.Bounded.mem_inProgress {s : State m} (h : State.Bounded s) (k : FrameKey) :
    k ∈ s.inProgress ↔ ∃ f ∈ s.top :: s.below, f.key = some k := by
  rw [h.keyed, List.mem_filterMap]

/-- A run comes to an end, for any tables, any scope, any first frame and any limit: it takes fewer
steps than a number that is known beforehand, and the state it comes to ends with the result of the
run. In every state on the way the stack holds no more frames than the limit allows, if it allows
one at all, and in progress are just the keys of the frames on the stack, each of them once. -/
theorem run_stops_within_depth (mode : Mode) (scope : Scope m) (f : Frame m)
    (joins : List JoinPath) :
    (∃ n s, Steps mode scope n (State.start f joins) s ∧
      step mode scope s = (run mode scope (State.start f joins)).map .done) ∧
    ∀ n s, Steps mode scope n (State.start f joins) s →
      n < Frame.work m.longest f * Nat.pow (2 * m.longest + 3) (m.maxDepth - 1) ∧
      (s.top :: s.below).length ≤ max 1 m.maxDepth ∧
      (∀ k, k ∈ s.inProgress ↔ ∃ g ∈ s.top :: s.below, g.key = some k) ∧
      s.inProgress.Nodup := by
  refine ⟨stops_of_run _, fun n s hsteps => ?_⟩
  have hbounded := bounded_of_steps hsteps (bounded_start f joins)
  refine ⟨?_, hbounded.room, hbounded.mem_inProgress, hbounded.distinct⟩
  rw [← State.work_start f joins]
  have hwork := hsteps.work_le
  have hleft := s.work_pos
  omega

end

/-- Players and those they were trained by, whose rank is made of the rank of their own trainers. -/
def lineage (depth : Nat) : Model where
  tables := [
    { name := "players"
      source := .physical none "players"
      columns := [
        { name := "rank", formula := "\x7b\x7btrainer.rank\x7d\x7d + 1", kind := .dimension }]
      joins := [
        { name := "trainer", table := "players"
          condition := "\x7b\x7b$trainer_id\x7d\x7d = \x7b\x7btrainer.$id\x7d\x7d" }] }]
  maxDepth := depth

/-- The players of a lineage. -/
def lineagePlayers (depth : Nat) : (lineage depth).Member :=
  ⟨_, List.mem_cons_self⟩

/-- The path grows at every reference, and no key is ever met again. -/
example :
    expandColumn ⟨.postgres, false⟩ (Scope.of (lineagePlayers 3) .empty) [] "rank" .empty none =
      .error (.tooDeep ["players.rank", "trainer.rank", "trainer_trainer.rank",
        "trainer_trainer_trainer.rank"] 3) := by
  decide +kernel

end Expansion

end Rollup
