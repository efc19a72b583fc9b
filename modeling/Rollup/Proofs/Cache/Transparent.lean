/-
Caches do not change what queries come to. Whatever a cache does, a call ends as it would without
one unless the cache has a result for it. A cache that never has one therefore changes nothing, even
if it fails. In the cache that holds results in memory every entry is what the queries with its key
come to: no call breaks this, so the results are those without a cache, and since entries are never
taken away, a query that succeeded once is not executed again.
-/
import Rollup.Engine
import Rollup.Proofs.Compile.Plan

namespace Rollup

namespace Engine

section

variable {σ ε : Type} (e : Engine)

/-! ## One call -/

/-- What a query comes to when no cache is asked. -/
def fresh (q : Query) : Outcome :=
  match e.compile q with
  | .error err => ⟨.error (.compile err), []⟩
  | .ok c => e.run c

/-- The key under which the cache is asked for a query; none where it is not asked. -/
def keyOf? (q : Query) : Option String :=
  if q.bypassCache then none else (e.compile q).toOption.map fun c => q.cacheKey c.dialect

theorem keyOf?_of_bypass {q : Query} (h : q.bypassCache = true) : e.keyOf? q = none :=
  if_pos h

@[simp]
theorem execute_none (q : Query) (s : σ) :
    e.execute (none : Option (Cache σ ε)) q s = (e.fresh q, s) := by
  unfold execute fresh
  cases e.compile q with
  | error err => rfl
  | ok c => cases q.bypassCache <;> rfl

theorem execute_of_unasked {q : Query} (hkey : e.keyOf? q = none) (k : Cache σ ε) (s : σ) :
    e.execute (some k) q s = (e.fresh q, s) := by
  unfold keyOf? at hkey
  unfold execute fresh
  cases hcompile : e.compile q with
  | error err => rfl
  | ok c =>
    cases hbypass : q.bypassCache with
    | true => rfl
    | false => simp [hcompile, hbypass, Except.toOption] at hkey

theorem execute_of_asked {q : Query} {key : String} (hkey : e.keyOf? q = some key) (k : Cache σ ε)
    (s : σ) : e.execute (some k) q s =
      match lookUp k key s with
      | (some r, s) => (⟨.ok r, []⟩, s)
      | (none, s) => match (e.fresh q).result with
        | .ok r => (e.fresh q, (k.put key r s).2)
        | .error _ => (e.fresh q, s) := by
  unfold keyOf? at hkey
  unfold execute fresh
  cases hbypass : q.bypassCache with
  | true => simp [hbypass] at hkey
  | false =>
    cases hcompile : e.compile q with
    | error err => simp [hcompile, hbypass, Except.toOption] at hkey
    | ok c =>
      obtain rfl : q.cacheKey c.dialect = key := by
        simpa [hcompile, hbypass, Except.toOption] using hkey
      rfl

/-- The ways a call goes through a cache, with what they come to and the state they leave. -/
inductive Goes (k : Cache σ ε) (q : Query) (s : σ) : Outcome × σ → Prop
  | unasked (hkey : e.keyOf? q = none) : Goes k q s (e.fresh q, s)
  | found {key r s'} (hkey : e.keyOf? q = some key) (hget : lookUp k key s = (some r, s')) :
    Goes k q s (⟨.ok r, []⟩, s')
  | failed {key err s'} (hkey : e.keyOf? q = some key) (hget : lookUp k key s = (none, s'))
    (hresult : (e.fresh q).result = .error err) : Goes k q s (e.fresh q, s')
  | kept {key r s'} (hkey : e.keyOf? q = some key) (hget : lookUp k key s = (none, s'))
    (hresult : (e.fresh q).result = .ok r) : Goes k q s (e.fresh q, (k.put key r s').2)

theorem execute_goes (k : Cache σ ε) (q : Query) (s : σ) :
    e.Goes k q s (e.execute (some k) q s) := by
  cases hkey : e.keyOf? q with
  | none =>
    rw [execute_of_unasked e hkey]
    exact .unasked hkey
  | some key =>
    rw [execute_of_asked e hkey]
    split
    · rename_i r s' hget
      exact .found hkey hget
    · rename_i s' hget
      split
      · rename_i r hresult
        exact .kept hkey hget hresult
      · rename_i err hresult
        exact .failed hkey hget hresult

/-! ## Caches that never have a result -/

/-- A cache that never has a result changes no outcome, whatever it fails with. -/
theorem execute_of_never_found (k : Cache σ ε)
    (hget : ∀ key s r, (k.get key s).1 ≠ .ok (some r)) (q : Query) (s : σ) :
    (e.execute (some k) q s).1 = (e.execute (none : Option (Cache σ ε)) q s).1 := by
  have hmissed : ∀ key s r s', lookUp k key s ≠ (some r, s') := by
    intro key s r s' hfound
    unfold lookUp at hfound
    split at hfound
    · rename_i found t hfound'
      cases hfound
      exact hget key s r (by rw [hfound'])
    · cases hfound
  rw [execute_none]
  have hgoes := e.execute_goes k q s
  generalize e.execute (some k) q s = made at hgoes ⊢
  cases hgoes with
  | unasked _ => rfl
  | found _ hfound => exact (hmissed _ _ _ _ hfound).elim
  | failed _ _ _ => rfl
  | kept _ _ _ => rfl

/-! ## Calls one after the other -/

/-- A call that was made, and the states of the cache before and after it. -/
structure Made (σ : Type) where
  query : Query
  before : σ
  outcome : Outcome
  after : σ

/-- Some queries executed in turn. -/
def trace (cache : Option (Cache σ ε)) : List Query → σ → List (Made σ)
  | [], _ => []
  | q :: qs, s =>
    let (outcome, after) := e.execute cache q s
    ⟨q, s, outcome, after⟩ :: trace cache qs after

/-- What every call keeps holds before each of them. -/
theorem trace_invariant {cache : Option (Cache σ ε)} {I : σ → Prop} {qs : List Query} {s : σ}
    (hkept : ∀ q ∈ qs, ∀ s, I s → I (e.execute cache q s).2) (hs : I s) :
    ∀ x ∈ e.trace cache qs s,
      x.query ∈ qs ∧ I x.before ∧ e.execute cache x.query x.before = (x.outcome, x.after) := by
  induction qs generalizing s with
  | nil => exact fun _ hx => by cases hx
  | cons q qs ih =>
    intro x hx
    rcases List.mem_cons.1 hx with rfl | hx
    · exact ⟨List.mem_cons_self, hs, rfl⟩
    · have hlater := ih (fun p hp => hkept p (List.mem_cons_of_mem _ hp))
        (hkept q List.mem_cons_self s hs) x hx
      exact hlater.imp_left (List.mem_cons_of_mem _)

/-- What a call leaves and every call keeps holds before the later ones. -/
theorem trace_pairwise {cache : Option (Cache σ ε)} {P : Query → σ → Prop}
    (hkept : ∀ p q s, P p s → P p (e.execute cache q s).2) (qs : List Query) (s : σ) :
    (e.trace cache qs s).Pairwise fun x y => P x.query x.after → P x.query y.before := by
  induction qs generalizing s with
  | nil => exact List.Pairwise.nil
  | cons q qs ih =>
    refine List.pairwise_cons.2 ⟨fun y hy hq => ?_, ih _⟩
    exact (e.trace_invariant (fun p _ => hkept q p) hq y hy).2.1

/-! ## Results in memory -/

/-- The queries that the cache is asked for have keys of their own. -/
def KeysTellApart (qs : List Query) : Prop :=
  ∀ q ∈ qs, ∀ p ∈ qs, (e.keyOf? q).isSome = true → e.keyOf? q = e.keyOf? p → q = p

/-- Where all data sources have one dialect, it is enough that the keys in this dialect differ. -/
theorem keysTellApart_of_dialect {d : Dialect} (hdialect : ∀ source, e.dialectFor source = d)
    {qs : List Query} (h : ∀ q ∈ qs, ∀ p ∈ qs, (e.keyOf? q).isSome = true →
      (e.keyOf? p).isSome = true → q.cacheKey d = p.cacheKey d → q = p) : e.KeysTellApart qs := by
  have hkey : ∀ {q key}, e.keyOf? q = some key → key = q.cacheKey d := by
    intro q key hkey
    unfold keyOf? at hkey
    split at hkey
    · cases hkey
    · obtain ⟨c, hcompile, rfl⟩ := Option.map_eq_some_iff.1 hkey
      obtain ⟨t, -, hcompile⟩ := bind_ok (ok_of_toOption hcompile)
      rw [dialect_of_compile hcompile, hdialect]
  intro q hq p hp hasked hsame
  obtain ⟨key, hq'⟩ := Option.isSome_iff_exists.1 hasked
  have hp' : e.keyOf? p = some key := hsame ▸ hq'
  exact h q hq p hp hasked (by rw [hp']; rfl) ((hkey hq').symm.trans (hkey hp'))

/-- What is held under the key of a query is what the query comes to. -/
def HoldsFresh (qs : List Query) (held : HeldResults) : Prop :=
  ∀ q ∈ qs, ∀ key, e.keyOf? q = some key → ∀ r, held.lookup key = some r →
    (e.fresh q).result = .ok r

/-- There is a result for a query. -/
def Holds (q : Query) (held : HeldResults) : Prop :=
  ∃ key r, e.keyOf? q = some key ∧ held.lookup key = some r

theorem holdsFresh_nil (qs : List Query) : e.HoldsFresh qs [] :=
  fun _ _ _ _ _ hr => by cases hr

/-- A call leaves what is held as it was, or adds what its query comes to. -/
theorem held_execute (q : Query) (held : HeldResults) :
    (e.execute (some .memory) q held).2 = held ∨
      ∃ key r, e.keyOf? q = some key ∧ (e.fresh q).result = .ok r ∧
        (e.execute (some .memory) q held).2 = Keyed.put key r held := by
  have hgoes := e.execute_goes .memory q held
  generalize e.execute (some .memory) q held = made at hgoes ⊢
  cases hgoes with
  | unasked _ => exact .inl rfl
  | found _ hget => exact .inl (Prod.mk.inj hget).2.symm
  | failed _ hget _ => exact .inl (Prod.mk.inj hget).2.symm
  | @kept key r _ hkey hget hresult =>
    obtain ⟨-, rfl⟩ := Prod.mk.inj hget
    exact .inr ⟨key, r, hkey, hresult, rfl⟩

/-- Every call keeps the entries fresh. -/
theorem holdsFresh_execute {qs : List Query} (hkeys : e.KeysTellApart qs) {q : Query} (hq : q ∈ qs)
    {held : HeldResults} (h : e.HoldsFresh qs held) :
    e.HoldsFresh qs (e.execute (some .memory) q held).2 := by
  rcases e.held_execute q held with hheld | ⟨key, r, hkey, hresult, hheld⟩
  · rwa [hheld]
  · intro p hp key' hkey' r' hr'
    rw [hheld, Keyed.lookup_put] at hr'
    split at hr'
    · -- the entry is new, and only this query has its key
      rename_i hsame
      cases hr'
      obtain rfl := hkeys q hq p hp (by rw [hkey]; rfl) (by rw [hkey, hkey', eq_of_beq hsame])
      exact hresult
    · exact h p hp key' hkey' r' hr'

/-- No call takes a result away. -/
theorem holds_execute {p : Query} (q : Query) {held : HeldResults} (h : e.Holds p held) :
    e.Holds p (e.execute (some .memory) q held).2 := by
  rcases e.held_execute q held with hheld | ⟨key, r, -, -, hheld⟩
  · rwa [hheld]
  · obtain ⟨key', r', hkey', hr'⟩ := h
    rw [hheld]
    by_cases hsame : key' = key
    · exact ⟨key', r, hkey', by simp [Keyed.lookup_put, hsame]⟩
    · exact ⟨key', r', hkey', by simp [Keyed.lookup_put, hsame, hr']⟩

/-- After a call that succeeded there is a result for its query, unless the cache was bypassed. -/
theorem holds_of_succeeded {q : Query} (hbypass : q.bypassCache = false) (held : HeldResults)
    {r : QueryResult} (hresult : (e.execute (some .memory) q held).1.result = .ok r) :
    e.Holds q (e.execute (some .memory) q held).2 := by
  have hgoes := e.execute_goes .memory q held
  generalize e.execute (some .memory) q held = made at hgoes hresult ⊢
  cases hgoes with
  | unasked hkey =>
    -- the query was not even compiled
    unfold fresh at hresult
    cases hcompile : e.compile q with
    | error err =>
      rw [hcompile] at hresult
      cases hresult
    | ok c => simp [keyOf?, hbypass, hcompile, Except.toOption] at hkey
  | @found key r' _ hkey hget =>
    obtain ⟨hr, rfl⟩ := Prod.mk.inj hget
    exact ⟨key, r', hkey, hr⟩
  | failed _ _ herror =>
    rw [herror] at hresult
    cases hresult
  | @kept key r' _ hkey hget _ =>
    obtain ⟨-, rfl⟩ := Prod.mk.inj hget
    exact ⟨key, r', hkey, by simp [Cache.memory, Keyed.lookup_put]⟩

/-- A query that there is a result for is not executed. -/
theorem calls_of_holds {q : Query} {held : HeldResults} (h : e.Holds q held) :
    (e.execute (some .memory) q held).1.calls = [] := by
  obtain ⟨key, r, hkey, hr⟩ := h
  have hget : lookUp .memory key held = (some r, held) := by simp [lookUp, Cache.memory, hr]
  rw [execute_of_asked e hkey, hget]

/-- With fresh entries a call has the result it has without a cache. -/
theorem result_of_holdsFresh {qs : List Query} {q : Query} (hq : q ∈ qs) {held : HeldResults}
    (h : e.HoldsFresh qs held) :
    (e.execute (some .memory) q held).1.result = (e.fresh q).result := by
  have hgoes := e.execute_goes .memory q held
  generalize e.execute (some .memory) q held = made at hgoes ⊢
  cases hgoes with
  | unasked _ => rfl
  | @found key r _ hkey hget => exact (h q hq key hkey r (Prod.mk.inj hget).1).symm
  | failed _ _ _ => rfl
  | kept _ _ _ => rfl

/-- A call that bypasses the cache, or comes to an error, leaves it as it was. -/
theorem unchanged_execute (q : Query) (held : HeldResults)
    (h : q.bypassCache = true ∨ ∃ err, (e.execute (some .memory) q held).1.result = .error err) :
    (e.execute (some .memory) q held).2 = held := by
  have hgoes := e.execute_goes .memory q held
  generalize e.execute (some .memory) q held = made at hgoes h ⊢
  cases hgoes with
  | unasked _ => rfl
  | found _ hget => exact (Prod.mk.inj hget).2.symm
  | failed _ hget _ => exact (Prod.mk.inj hget).2.symm
  | kept hkey _ hresult =>
    rcases h with hbypass | ⟨err, herror⟩
    · rw [e.keyOf?_of_bypass hbypass] at hkey
      cases hkey
    · rw [hresult] at herror
      cases herror

/-- With an empty cache in memory, and keys that tell apart the queries it is asked for, every one of
some calls has the result it has without a cache; a call that bypasses the cache or comes to an error
leaves it as it was; and after a call that succeeded, no later call with the same query is executed,
unless one of them bypasses the cache. -/
theorem trace_memory (qs : List Query) (hkeys : e.KeysTellApart qs) :
    (∀ x ∈ e.trace (some .memory) qs [],
      x.outcome.result =
        (e.execute (none : Option (Cache HeldResults UnreadableEntry)) x.query x.before).1.result ∧
      (x.query.bypassCache = true ∨ (∃ err, x.outcome.result = .error err) →
        x.after = x.before)) ∧
    (e.trace (some .memory) qs []).Pairwise fun x y =>
      x.query.bypassCache = false → (∃ r, x.outcome.result = .ok r) →
        y.query = x.query → y.outcome.calls = [] := by
  have hinvariant := e.trace_invariant (fun q hq held => e.holdsFresh_execute hkeys hq)
    (e.holdsFresh_nil qs)
  refine ⟨fun x hx => ?_, ?_⟩
  · obtain ⟨hq, hfresh, hcall⟩ := hinvariant x hx
    have hresult := e.result_of_holdsFresh hq hfresh
    have hunchanged := e.unchanged_execute x.query x.before
    rw [hcall] at hresult hunchanged
    rw [execute_none]
    exact ⟨hresult, hunchanged⟩
  · refine (e.trace_pairwise (P := e.Holds) (fun _ q _ => e.holds_execute q) qs []).imp_of_mem ?_
    intro x y hx hy hlater hbypass ⟨r, hr⟩ hsame
    obtain ⟨-, -, hcall⟩ := hinvariant x hx
    obtain ⟨-, -, hcall'⟩ := hinvariant y hy
    have hholds := e.holds_of_succeeded hbypass x.before (by rw [hcall]; exact hr)
    rw [hcall] at hholds
    have hcalls := e.calls_of_holds (hsame ▸ hlater hholds)
    rwa [hcall'] at hcalls

end

/-! ## Queries about swimmers -/

/-- Swimmers and the clubs they swim for. -/
def swimmers : Table where
  name := "swimmers"
  source := .physical none "swimmers"
  columns := [
    { name := "name", formula := "\x7b\x7b$name\x7d\x7d", kind := .dimension },
    { name := "club", formula := "\x7b\x7b$club\x7d\x7d", kind := .dimension }]

/-- An engine whose database answers every statement with one row. -/
def pool : Engine where
  model := { tables := [swimmers] }
  defaultDialect := .sqlite
  executor := {
    query := fun _ _ => .ok ⟨["name", "club"], [.ok [.text "Ada", .text "Otters"]]⟩
    count := fun _ _ => .ok 1 }

/-- Asks for a column of the swimmers. -/
def swimmersBy (column : String) (bypassCache : Bool) : Query where
  table := "swimmers"
  arguments := .empty
  projections := [⟨{ column }, .dimension, column⟩]
  whereFilter := none
  havingFilter := none
  sorting := []
  pagination := none
  bypassCache

/-- Calls with and without the cache; the last but one asks for a column that does not exist. -/
def poolCalls : List Query :=
  [swimmersBy "name" false, swimmersBy "club" false, swimmersBy "name" true,
    swimmersBy "coach" false, swimmersBy "name" false]

/-- Whether the statements of a plan have a result. -/
def hasResult (e : Engine) (p : Plan) : Bool :=
  match p.compile with
  | .ok c => (e.run c).result.toOption.isSome
  | .error _ => false

theorem fresh_swimmersBy_name :
    ∃ r, (pool.fresh (swimmersBy "name" false)).result = .ok r := by
  let root : pool.model.Member := ⟨swimmers, List.mem_cons_self⟩
  have hfilters : Placement.of pool.model (swimmersBy "name" false) = .ok {} := by decide +kernel
  have hdraft : ((Plan.draft .sqlite (swimmersBy "name" false) root {}).run' []).map (fun r =>
      (r.2, pool.hasResult { r.1 with joins := [] })) = .ok ([], true) := by decide +kernel
  obtain ⟨p, hbuild, hp⟩ := Plan.build_shown pool.hasResult hfilters rfl hdraft
  have hcompile : pool.compile (swimmersBy "name" false) = p.compile := compile_of_build hbuild
  unfold fresh
  rw [hcompile]
  unfold hasResult at hp
  split at hp
  · rename_i c hc
    obtain ⟨r, hr⟩ := Option.isSome_iff_exists.1 hp
    rw [hc]
    exact ⟨r, ok_of_toOption hr⟩
  · cases hp

/-- A cache that can be read every other time only, and never written. -/
def worn : Cache Nat String where
  get key n := (if n % 2 = 0 then .error ("cannot read " ++ key) else .ok none, n + 1)
  put key _ n := (.error ("cannot write " ++ key), n + 1)

theorem execute_of_never_found_worn :
    (∀ key n r, (worn.get key n).1 ≠ .ok (some r)) ∧
    (∃ r, (pool.execute (some worn) (swimmersBy "name" false) 0).1.result = .ok r) ∧
    ∀ q n, (pool.execute (some worn) q n).1 =
      (pool.execute (none : Option (Cache Nat String)) q n).1 := by
  have hget : ∀ key n r, (worn.get key n).1 ≠ .ok (some r) := by
    intro key n r
    simp only [worn]
    split <;> simp
  refine ⟨hget, ?_, pool.execute_of_never_found worn hget⟩
  rw [pool.execute_of_never_found worn hget, execute_none]
  exact fresh_swimmersBy_name

theorem trace_memory_pool :
    pool.KeysTellApart poolCalls ∧
    (∃ r, (pool.fresh (swimmersBy "name" false)).result = .ok r) ∧
    (∀ x ∈ pool.trace (some .memory) poolCalls [],
      x.outcome.result =
        (pool.execute (none : Option (Cache HeldResults UnreadableEntry)) x.query x.before).1.result ∧
      (x.query.bypassCache = true ∨ (∃ err, x.outcome.result = .error err) →
        x.after = x.before)) ∧
    (pool.trace (some .memory) poolCalls []).Pairwise fun x y =>
      x.query.bypassCache = false → (∃ r, x.outcome.result = .ok r) →
        y.query = x.query → y.outcome.calls = [] := by
  have hunasked : pool.keyOf? (swimmersBy "coach" false) = none := by decide +kernel
  have hasked : ∀ q ∈ poolCalls, (pool.keyOf? q).isSome = true →
      q = swimmersBy "name" false ∨ q = swimmersBy "club" false := by
    intro q hq hsome
    simp only [poolCalls, List.mem_cons, List.not_mem_nil, or_false] at hq
    rcases hq with rfl | rfl | rfl | rfl | rfl
    · exact .inl rfl
    · exact .inr rfl
    · cases hsome
    · rw [hunasked] at hsome
      cases hsome
    · exact .inl rfl
  have hdigests : (swimmersBy "name" false).cacheKey .sqlite ≠
      (swimmersBy "club" false).cacheKey .sqlite := by decide +kernel
  have hkeys : pool.KeysTellApart poolCalls := by
    refine pool.keysTellApart_of_dialect (fun _ => rfl) fun q hq p hp hq' hp' hsame => ?_
    rcases hasked q hq hq' with rfl | rfl <;> rcases hasked p hp hp' with rfl | rfl
    · rfl
    · exact (hdigests hsame).elim
    · exact (hdigests hsame.symm).elim
    · rfl
  exact ⟨hkeys, fresh_swimmersBy_name, pool.trace_memory poolCalls hkeys⟩

end Engine

end Rollup
