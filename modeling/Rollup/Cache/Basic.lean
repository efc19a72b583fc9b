/-
Caches of results. A cache is what it answers and how it changes; two are offered, one that holds
the results themselves and one that holds their JSON texts.
-/
import Rollup.Keyed
import Rollup.Result.Stored

namespace Rollup

/-- A cache with states `σ` and errors `ε`. Both operations may fail, and may change the state all
the same. -/
structure Cache (σ ε : Type) where
  get : String → σ → Except ε (Option QueryResult) × σ
  put : String → QueryResult → σ → Except ε Unit × σ

/-- A stored text that holds no result. -/
structure UnreadableEntry where
  key : String
  deriving DecidableEq, Repr

/-! ## Results in memory -/

/-- Results by key. -/
abbrev HeldResults := List (String × QueryResult)

/-- The cache of results as they are. It never fails. -/
def Cache.memory : Cache HeldResults UnreadableEntry where
  get key held := (.ok (held.lookup key), held)
  put key r held := (.ok (), Keyed.put key r held)

/-! ## Results as text -/

/-- JSON texts of results by key. -/
abbrev StoredTexts := List (String × String)

namespace StoredTexts

/-- What the text of a key is read as; a text that is no result is an error. -/
def get (texts : StoredTexts) (key : String) : Except UnreadableEntry (Option QueryResult) :=
  match texts.lookup key with
  | none => .ok none
  | some text => match QueryResult.ofJson? text with
    | some r => .ok (some r)
    | none => .error ⟨key⟩

/-- Keeps the text of a result, in place of the one that had its key. -/
def put (texts : StoredTexts) (key : String) (r : QueryResult) : StoredTexts :=
  Keyed.put key r.json texts

/-- Takes an entry away, and tells whether there was one. -/
def delete (texts : StoredTexts) (key : String) : Bool × StoredTexts :=
  ((texts.lookup key).isSome, Keyed.erase key texts)

/-- The number of characters of all texts. -/
def size (texts : StoredTexts) : Nat :=
  texts.foldl (fun n e => n + e.2.length) 0

end StoredTexts

/-- The cache of results as JSON texts. A text that cannot be read back makes `get` fail. -/
def Cache.stored : Cache StoredTexts UnreadableEntry where
  get key texts := (texts.get key, texts)
  put key r texts := (.ok (), texts.put key r)

end Rollup
