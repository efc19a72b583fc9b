/-
The two caches compared. Results in memory are a map from keys to the results last put under them.
Results as texts are the texts of that map, whatever is asked: so a `get` answers what the text of
the last result is read as, and fails where it cannot be read. The answers are the same exactly when
every result that is found is given back by its text.
-/
import Mathlib.Logic.Function.Basic
import Rollup.Cache.Basic
import Rollup.Proofs.Result.Stored

namespace Rollup

/-! ## Maps -/

namespace Keyed

variable {α β : Type} (f : α → β)

theorem lookup_map (key : String) (entries : List (String × α)) :
    (entries.map fun e => (e.1, f e.2)).lookup key = (entries.lookup key).map f := by
  induction entries with
  | nil => rfl
  | cons e rest ih =>
    obtain ⟨k, a⟩ := e
    simp only [List.map_cons, List.lookup_cons, ih]
    split <;> rfl

theorem put_map (key : String) (a : α) (entries : List (String × α)) :
    put key (f a) (entries.map fun e => (e.1, f e.2)) =
      (put key a entries).map fun e => (e.1, f e.2) := by
  induction entries with
  | nil => rfl
  | cons e rest ih =>
    simp only [List.map_cons, put, ih]
    split <;> rfl

theorem lookup_put_eq_update (key : String) (a : α) (entries : List (String × α)) :
    (fun k => (put key a entries).lookup k) =
      Function.update (fun k => entries.lookup k) key (some a) := by
  funext k
  rw [lookup_put, Function.update_apply]
  simp only [beq_iff_eq]

end Keyed

namespace Cache

/-! ## Accesses -/

/-- What is asked of a cache. -/
inductive Access where
  | get (key : String)
  | put (key : String) (r : QueryResult)

section

variable {σ ε : Type} (c : Cache σ ε)

/-- The answer to an access, and the state behind it. A `put` has nothing to answer. -/
def access : Access → σ → Except ε (Option QueryResult) × σ
  | .get key, s => c.get key s
  | .put key r, s => ((c.put key r s).1.map fun _ => none, (c.put key r s).2)

/-- The answers to accesses one after another. -/
def answers : List Access → σ → List (Except ε (Option QueryResult))
  | [], _ => []
  | a :: rest, s => (c.access a s).1 :: answers rest (c.access a s).2

end

/-- What is to be found: each `get` finds the result last put under its key. -/
def found (held : String → Option QueryResult) : List Access → List (Option QueryResult)
  | [] => []
  | .get key :: rest => held key :: found held rest
  | .put key r :: rest => none :: found (Function.update held key (some r)) rest

theorem answers_memory (accesses : List Access) (held : HeldResults) :
    memory.answers accesses held = (found (fun key => held.lookup key) accesses).map .ok := by
  induction accesses generalizing held with
  | nil => rfl
  | cons a rest ih =>
    cases a with
    | get key =>
      rw [answers, ih]
      rfl
    | put key r =>
      rw [answers, ih, found, ← Keyed.lookup_put_eq_update]
      rfl

/-! ## Results as texts -/

/-- The texts of results in memory. -/
def texts (held : HeldResults) : StoredTexts :=
  held.map fun e => (e.1, e.2.json)

/-- What the text of a result that is found is answered with. -/
def Restored : Option QueryResult → Except UnreadableEntry (Option QueryResult) → Prop
  | none, answer => answer = .ok none
  | some r, answer =>
    if r.Readable then answer = .ok (some r.reread) else ∃ key, answer = .error ⟨key⟩

theorem restored_get (held : HeldResults) (key : String) :
    Restored (held.lookup key) ((texts held).get key) := by
  rw [StoredTexts.get, texts, Keyed.lookup_map]
  cases held.lookup key with
  | none => rfl
  | some r =>
    simp only [Option.map_some, QueryResult.ofJson?_json, Restored]
    split
    · rfl
    · exact ⟨key, rfl⟩

/-- The texts stay those of the results in memory, so every answer is read from the right one. -/
theorem restored_answers (accesses : List Access) (held : HeldResults) :
    List.Forall₂ Restored (found (fun key => held.lookup key) accesses)
      (stored.answers accesses (texts held)) := by
  induction accesses generalizing held with
  | nil => exact .nil
  | cons a rest ih =>
    cases a with
    | get key => exact .cons (restored_get held key) (ih held)
    | put key r =>
      have htexts : (texts held).put key r = texts (Keyed.put key r held) :=
        Keyed.put_map QueryResult.json key r held
      have hrest := ih (Keyed.put key r held)
      rw [Keyed.lookup_put_eq_update, ← htexts] at hrest
      exact .cons rfl hrest

theorem restored_some_iff {r : QueryResult} {answer : Except UnreadableEntry (Option QueryResult)}
    (h : Restored (some r) answer) :
    (answer = .ok (some r) ↔ r.Kept) ∧ ((∃ o, answer = .ok o) ↔ r.Readable) := by
  rw [Restored] at h
  rw [← QueryResult.readable_and_reread_iff]
  split at h
  case isTrue hr => simp [h, hr]
  case isFalse hr =>
    obtain ⟨key, rfl⟩ := h
    simp [hr]

/-- Answers with the results themselves are right where the texts give them back. -/
theorem forall₂_restored_iff {os : List (Option QueryResult)}
    {answers : List (Except UnreadableEntry (Option QueryResult))}
    (h : List.Forall₂ Restored os answers) :
    (answers = os.map .ok ↔ ∀ r, some r ∈ os → r.Kept) ∧
      ((∀ answer ∈ answers, ∃ o, answer = .ok o) ↔ ∀ r, some r ∈ os → r.Readable) := by
  induction h with
  | nil => simp
  | @cons o answer os answers ho hos ih =>
    obtain ⟨ihKept, ihReadable⟩ := ih
    cases o with
    | none =>
      obtain rfl : answer = .ok none := ho
      simp [ihKept, ihReadable]
    | some r =>
      obtain ⟨hkept, hreadable⟩ := restored_some_iff ho
      simp [ihKept, ihReadable, hkept, hreadable]

/-- Both caches answer any accesses alike exactly when the texts of the results that are found give
them back, and the cache of texts never fails exactly when they can be read. The cache in memory
always answers with the results last put. -/
theorem answers_stored_iff (accesses : List Access) :
    memory.answers accesses [] = (found (fun _ => none) accesses).map .ok ∧
    List.Forall₂ Restored (found (fun _ => none) accesses) (stored.answers accesses []) ∧
    (stored.answers accesses [] = memory.answers accesses [] ↔
      ∀ r, some r ∈ found (fun _ => none) accesses → r.Kept) ∧
    ((∀ answer ∈ stored.answers accesses [], ∃ o, answer = .ok o) ↔
      ∀ r, some r ∈ found (fun _ => none) accesses → r.Readable) := by
  have hmemory := answers_memory accesses []
  have hstored := restored_answers accesses []
  obtain ⟨hkept, hreadable⟩ := forall₂_restored_iff hstored
  refine ⟨hmemory, hstored, ?_, hreadable⟩
  rw [hmemory]
  exact hkept

/-- A row with a number of goals. -/
def scored (goals : Double) : QueryResult where
  rows := [⟨0, [("goals", .decimal goals)]⟩]

/-- The number before `2 ^ 53` comes back as the one before it, and what is no number not at all. -/
theorem answers_stored_scored :
    memory.answers [.put "k" (scored (.ofInt 9007199254740991)), .get "k"] [] =
      [.ok none, .ok (some (scored (.ofInt 9007199254740991)))] ∧
    stored.answers [.put "k" (scored (.ofInt 9007199254740991)), .get "k"] [] =
      [.ok none, .ok (some (scored (.ofInt 9007199254740990)))] ∧
    scored (.ofInt 9007199254740990) ≠ scored (.ofInt 9007199254740991) ∧
    memory.answers [.put "k" (scored .nan), .get "k"] [] = [.ok none, .ok (some (scored .nan))] ∧
    stored.answers [.put "k" (scored .nan), .get "k"] [] = [.ok none, .error ⟨"k"⟩] := by
  have hnumber : QueryResult.ofJson? (scored (.ofInt 9007199254740991)).json =
      some (scored (.ofInt 9007199254740990)) := by decide +kernel
  have hnan : QueryResult.ofJson? (scored .nan).json = none := by decide +kernel
  refine ⟨rfl, ?_, by decide +kernel, rfl, ?_⟩
  · simp [answers, access, stored, StoredTexts.put, StoredTexts.get, Keyed.put, hnumber, Except.map]
  · simp [answers, access, stored, StoredTexts.put, StoredTexts.get, Keyed.put, hnan, Except.map]

end Cache

end Rollup
