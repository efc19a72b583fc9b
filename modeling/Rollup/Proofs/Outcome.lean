/-
Computations that may fail: what a success says about their parts.
-/
import Mathlib.Data.List.Forall2

namespace Rollup

variable {ε α β : Type}

theorem bind_ok {x : Except ε α} {f : α → Except ε β} {b : β} (h : x >>= f = .ok b) :
    ∃ a, x = .ok a ∧ f a = .ok b := by
  cases x with
  | error e => cases h
  | ok a => exact ⟨a, rfl, h⟩

theorem bind_ok_iff {x : Except ε α} {f : α → Except ε β} {b : β} :
    x >>= f = .ok b ↔ ∃ a, x = .ok a ∧ f a = .ok b := by
  constructor
  · exact bind_ok
  · rintro ⟨a, rfl, h⟩
    exact h

theorem bind_error {x : Except ε α} {f : α → Except ε β} {e : ε}
    (h : x >>= f = .error e) : x = .error e ∨ ∃ a, x = .ok a ∧ f a = .error e := by
  cases x with
  | error e' =>
    cases h
    exact .inl rfl
  | ok a => exact .inr ⟨a, rfl, h⟩

theorem map_ok {x : Except ε α} {f : α → β} {b : β} (h : x.map f = .ok b) :
    ∃ a, x = .ok a ∧ f a = b := by
  cases x with
  | error e => cases h
  | ok a =>
    rw [Except.map, Except.ok.injEq] at h
    exact ⟨a, rfl, h⟩

theorem map_ok_iff {x : Except ε α} {f : α → β} {b : β} :
    x.map f = .ok b ↔ ∃ a, x = .ok a ∧ f a = b := by
  constructor
  · exact map_ok
  · rintro ⟨a, rfl, rfl⟩
    rfl

theorem map_error {x : Except ε α} {f : α → β} {e : ε}
    (h : x.map f = .error e) : x = .error e := by
  cases x with
  | error e' =>
    cases h
    rfl
  | ok a => cases h

theorem mapError_error {ε' : Type} {x : Except ε α} {f : ε → ε'} {e : ε'}
    (h : x.mapError f = .error e) : ∃ e', x = .error e' ∧ f e' = e := by
  cases x with
  | error e' =>
    cases h
    exact ⟨e', rfl, rfl⟩
  | ok a => cases h

theorem ok_of_toOption {x : Except ε α} {a : α} (h : x.toOption = some a) : x = .ok a := by
  cases x with
  | error e => cases h
  | ok b =>
    cases h
    rfl

theorem run_bind_ok {σ : Type} {x : StateT σ (Except ε) α} {f : α → StateT σ (Except ε) β}
    {s s' : σ} {b : β} (h : (x >>= f).run s = .ok (b, s')) :
    ∃ a t, x.run s = .ok (a, t) ∧ (f a).run t = .ok (b, s') := by
  rw [StateT.run_bind] at h
  obtain ⟨⟨a, t⟩, ha, hb⟩ := bind_ok h
  exact ⟨a, t, ha, hb⟩

theorem run'_bind_pure {σ : Type} (x : StateT σ (Except ε) α) (f : α → β) (s : σ) :
    (do let a ← x; return f a : StateT σ (Except ε) β).run' s = (x.run' s).map f := by
  rw [StateT.run'_eq, StateT.run'_eq, StateT.run_bind]
  cases x.run s with
  | error e => rfl
  | ok r => rfl

/-- The results of a list stand beside its elements. -/
theorem mapM_ok {f : α → Except ε β} {as : List α} {bs : List β} (h : as.mapM f = .ok bs) :
    List.Forall₂ (fun a b => f a = .ok b) as bs := by
  induction as generalizing bs with
  | nil =>
    rw [List.mapM_nil] at h
    cases h; exact .nil
  | cons a as ih =>
    rw [List.mapM_cons] at h
    obtain ⟨b, hb, h⟩ := bind_ok h
    obtain ⟨bs', hbs, h⟩ := bind_ok h
    cases h
    exact .cons hb (ih hbs)

theorem mapM_of_beside {f : α → Except ε β} {as : List α} {bs : List β}
    (h : List.Forall₂ (fun a b => f a = .ok b) as bs) : as.mapM f = .ok bs := by
  induction h with
  | nil => rfl
  | cons hb _ ih =>
    rw [List.mapM_cons, hb, ih]
    rfl

/-- A list of computations, each of which succeeds under a condition and then with a known
result. -/
theorem mapM_ok_iff {f : α → Except ε β} {P : α → Prop} {g : α → β} {as : List α} {bs : List β}
    (hf : ∀ a ∈ as, ∀ b, f a = .ok b ↔ P a ∧ b = g a) :
    as.mapM f = .ok bs ↔ (∀ a ∈ as, P a) ∧ bs = as.map g := by
  induction as generalizing bs with
  | nil =>
    rw [List.mapM_nil]
    constructor
    · intro h
      cases h
      refine ⟨?_, rfl⟩
      intro _ ha
      cases ha
    · rintro ⟨-, rfl⟩
      rfl
  | cons a as ih =>
    have hrest : ∀ bs, as.mapM f = .ok bs ↔ (∀ a ∈ as, P a) ∧ bs = as.map g :=
      fun bs => ih fun b hb => hf b (List.mem_cons_of_mem _ hb)
    have hfirst := hf a List.mem_cons_self
    rw [List.mapM_cons, List.forall_mem_cons, List.map_cons]
    constructor
    · intro h
      obtain ⟨b, hb, h⟩ := bind_ok h
      obtain ⟨rest, hbs, h⟩ := bind_ok h
      cases h
      obtain ⟨ha, rfl⟩ := (hfirst b).1 hb
      obtain ⟨has, rfl⟩ := (hrest rest).1 hbs
      exact ⟨⟨ha, has⟩, rfl⟩
    · rintro ⟨⟨ha, has⟩, rfl⟩
      rw [(hfirst _).2 ⟨ha, rfl⟩, (hrest _).2 ⟨has, rfl⟩]
      rfl

/-- Computations that leave the state alone have their results beside the elements too. -/
theorem run_mapM_lift {σ : Type} {f : α → Except ε β} {as : List α} {bs : List β} {s s' : σ}
    (h : (as.mapM fun a => (liftM (f a) : StateT σ (Except ε) β)).run s = .ok (bs, s')) :
    List.Forall₂ (fun a b => f a = .ok b) as bs := by
  induction as generalizing bs s with
  | nil =>
    cases h
    exact .nil
  | cons a as ih =>
    rw [List.mapM_cons] at h
    obtain ⟨b, t, hlift, h⟩ := run_bind_ok h
    obtain ⟨b', hb, hlift⟩ := bind_ok hlift
    cases hlift
    obtain ⟨bs', t', hbs, h⟩ := run_bind_ok h
    cases h
    exact .cons hb (ih hbs)

theorem exists_beside {R : α → β → Prop} {as : List α} {bs : List β} (h : List.Forall₂ R as bs)
    {a : α} (ha : a ∈ as) : ∃ b ∈ bs, R a b := by
  induction h with
  | nil => cases ha
  | @cons _ b _ _ hab _ ih =>
    rcases List.mem_cons.1 ha with rfl | ha
    · exact ⟨b, List.mem_cons_self, hab⟩
    · obtain ⟨b', hb', hr⟩ := ih ha
      exact ⟨b', List.mem_cons_of_mem _ hb', hr⟩

theorem forM_ok {f : α → Except ε Unit} {as : List α} (h : as.forM f = .ok ()) :
    ∀ a ∈ as, f a = .ok () := by
  induction as with
  | nil => exact fun _ ha => by cases ha
  | cons a as ih =>
    rw [List.forM_eq_forM, List.forM_cons] at h
    obtain ⟨u, hu, h⟩ := bind_ok h
    intro b hb
    rcases List.mem_cons.1 hb with rfl | hb
    · exact hu
    · exact ih h b hb

theorem forM_ok_iff {f : α → Except ε Unit} {as : List α} :
    as.forM f = .ok () ↔ ∀ a ∈ as, f a = .ok () := by
  constructor
  · exact forM_ok
  · intro h
    induction as with
    | nil => rfl
    | cons a as ih =>
      rw [List.forM_eq_forM, List.forM_cons, h a List.mem_cons_self]
      exact ih fun b hb => h b (List.mem_cons_of_mem _ hb)

theorem forM_error {f : α → Except ε Unit} {as : List α} {e : ε} (h : as.forM f = .error e) :
    ∃ a ∈ as, f a = .error e := by
  induction as with
  | nil => cases h
  | cons a as ih =>
    rw [List.forM_eq_forM, List.forM_cons] at h
    rcases bind_error h with h | ⟨_, -, h⟩
    · exact ⟨a, List.mem_cons_self, h⟩
    · obtain ⟨b, hb, h⟩ := ih h
      exact ⟨b, List.mem_cons_of_mem _ hb, h⟩

theorem run_forM_ok {σ : Type} {f : α → StateT σ (Except ε) Unit} {as : List α} {s s' : σ}
    (h : (as.forM f).run s = .ok ((), s')) : ∀ a ∈ as, ∃ t t', (f a).run t = .ok ((), t') := by
  induction as generalizing s with
  | nil => exact fun _ ha => by cases ha
  | cons a as ih =>
    rw [List.forM_eq_forM, List.forM_cons] at h
    obtain ⟨_, t, ha, h⟩ := run_bind_ok h
    intro b hb
    rcases List.mem_cons.1 hb with rfl | hb
    · exact ⟨s, t, ha⟩
    · exact ih h b hb

/-- What every step keeps, a run over a list keeps, and it holds before each of the steps. -/
theorem run_forM_invariant {σ : Type} {f : α → StateT σ (Except ε) Unit} {I : σ → Prop}
    {as : List α} {s s' : σ} (hstep : ∀ a ∈ as, ∀ t t', I t → (f a).run t = .ok ((), t') → I t')
    (hs : I s) (h : (as.forM f).run s = .ok ((), s')) :
    I s' ∧ ∀ a ∈ as, ∃ t t', I t ∧ (f a).run t = .ok ((), t') := by
  induction as generalizing s with
  | nil =>
    cases h
    exact ⟨hs, fun _ ha => by cases ha⟩
  | cons a as ih =>
    rw [List.forM_eq_forM, List.forM_cons] at h
    obtain ⟨_, t, ha, h⟩ := run_bind_ok h
    have ht : I t := hstep a List.mem_cons_self s t hs ha
    obtain ⟨hend, hall⟩ := ih (fun b hb => hstep b (List.mem_cons_of_mem _ hb)) ht h
    refine ⟨hend, fun b hb => ?_⟩
    rcases List.mem_cons.1 hb with rfl | hb
    · exact ⟨s, t, hs, ha⟩
    · exact hall b hb

end Rollup
