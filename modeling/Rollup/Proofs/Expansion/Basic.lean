/-
Expansion taken a step at a time, and the join paths it records. A step that succeeds hands over to
the run of the next state, so a run on known segments is followed by rewriting with its steps. What
is recorded of a path is the path and its starts, none of them empty.
-/
import Rollup.Expansion.Machine

namespace Rollup

/-! ## Paths -/

namespace JoinPath

theorem mem_union {p : JoinPath} {paths more : List JoinPath} :
    p ∈ union paths more ↔ p ∈ paths ∨ p ∈ more := by
  induction more generalizing paths with
  | nil => simp [union]
  | cons q more ih =>
    rw [union, List.foldl_cons, ← union, ih, mem_insert, List.mem_cons]
    constructor
    · rintro ((rfl | h) | h)
      · exact .inr (.inl rfl)
      · exact .inl h
      · exact .inr (.inr h)
    · rintro (h | rfl | h)
      · exact .inl (.inr h)
      · exact .inl (.inl rfl)
      · exact .inr h

theorem mem_record {p q : JoinPath} {paths : List JoinPath} :
    q ∈ record p paths ↔ q ∈ paths ∨ q ∈ starts p :=
  mem_union

theorem ne_nil_of_mem_starts {p q : JoinPath} (h : q ∈ starts p) : q ≠ [] := by
  cases p with
  | nil => cases h
  | cons name rest =>
    rcases List.mem_cons.1 h with rfl | h
    · exact List.cons_ne_nil _ _
    · obtain ⟨r, -, rfl⟩ := List.mem_map.1 h
      exact List.cons_ne_nil _ _

theorem self_mem_starts {p : JoinPath} (hne : p ≠ []) : p ∈ starts p := by
  induction p with
  | nil => exact (hne rfl).elim
  | cons name rest ih =>
    cases rest with
    | nil => exact List.mem_cons_self
    | cons next rest =>
      exact List.mem_cons_of_mem _ (List.mem_map_of_mem (ih (List.cons_ne_nil _ _)))

theorem length_le_of_mem_starts {p q : JoinPath} (h : q ∈ p.starts) : q.length ≤ p.length := by
  induction p generalizing q with
  | nil => cases h
  | cons name rest ih =>
    rcases List.mem_cons.1 h with rfl | h
    · exact Nat.succ_le_succ (Nat.zero_le _)
    · obtain ⟨r, hr, rfl⟩ := List.mem_map.1 h
      exact Nat.succ_le_succ (ih hr)

end JoinPath

/-! ## Templates -/

theorem readTemplate_eq {t : Table} {reference text : String} {u : Template}
    (h : Template.parse text = .ok u) : readTemplate t reference text = .ok ⟨u, h⟩ := by
  unfold readTemplate
  -- the result carries the equation it was read by, so the two are replaced together
  revert h
  generalize Template.parse text = parsed
  rintro rfl
  rfl

/-! ## Runs -/

namespace Expansion

variable {m : Model} {mode : Mode} {scope : Scope m} {s s' : State m}

theorem run_of_next (h : step mode scope s = .ok (.next s')) :
    run mode scope s = run mode scope s' := by
  rw [run]
  split <;> rename_i h' <;> rw [h] at h' <;> cases h'
  rfl

theorem run_of_done {f : Fragment} (h : step mode scope s = .ok (.done f)) :
    run mode scope s = .ok f := by
  rw [run]
  split <;> rename_i h' <;> rw [h] at h' <;> cases h'
  rfl

theorem run_of_error {e : CompileError} (h : step mode scope s = .error e) :
    run mode scope s = .error e := by
  rw [run]
  split <;> rename_i h' <;> rw [h] at h' <;> cases h'
  rfl

theorem run_text {segment : Segment} {rest : Template} {path : JoinPath} {sql : String}
    (hrest : s.top.rest = segment :: rest)
    (haction : segment.action mode scope s.top = .ok (path, .text sql)) :
    run mode scope s = run mode scope { s with
      top := { s.top with rest, out := s.top.out ++ sql }, joins := path.record s.joins } := by
  refine run_of_next ?_
  simp only [step, hrest, haction, bind, Except.bind]
  rfl

theorem run_end (hrest : s.top.rest = []) (hgrain : s.top.grain = none) (hbelow : s.below = []) :
    run mode scope s = .ok ⟨s.top.out, s.joins⟩ := by
  refine run_of_done ?_
  simp only [step, hrest, hgrain, State.finish, hbelow]

end Expansion

end Rollup
