/-
Argument values by name. The entries stand in the order of their names, so that equal arguments
are written alike.
-/
import Rollup.Datum.Decode

namespace Rollup

/-- Values by name, in ascending order of the names. -/
structure Arguments where
  entries : List (String × String)
  ordered : entries.Pairwise fun a b => a.1 < b.1
  deriving DecidableEq

namespace Arguments

/-- No arguments. -/
def empty : Arguments := ⟨[], List.Pairwise.nil⟩

instance : Inhabited Arguments := ⟨empty⟩

/-- Whether there are none. -/
def isEmpty (a : Arguments) : Bool :=
  a.entries.isEmpty

/-- The value of a name. -/
def get? (a : Arguments) (name : String) : Option String :=
  a.entries.lookup name

/-- The entries with the value of one name set. -/
def insertEntry (name value : String) : List (String × String) → List (String × String)
  | [] => [(name, value)]
  | (n, v) :: rest =>
    if name < n then (name, value) :: (n, v) :: rest
    else if name = n then (name, value) :: rest
    else (n, v) :: insertEntry name value rest

theorem mem_insertEntry {name value : String} {es : List (String × String)}
    {e : String × String} (h : e ∈ insertEntry name value es) :
    e = (name, value) ∨ e ∈ es := by
  induction es with
  | nil => simpa [insertEntry] using h
  | cons x rest ih =>
    obtain ⟨n, v⟩ := x
    simp only [insertEntry] at h
    split at h
    · simpa using h
    · split at h
      · rcases List.mem_cons.1 h with h | h
        · exact .inl h
        · exact .inr (List.mem_cons_of_mem _ h)
      · rcases List.mem_cons.1 h with h | h
        · exact .inr (h ▸ List.mem_cons_self)
        · exact (ih h).imp_right (List.mem_cons_of_mem _)

theorem insertEntry_ordered (name value : String) {es : List (String × String)}
    (h : es.Pairwise fun a b => a.1 < b.1) :
    (insertEntry name value es).Pairwise fun a b => a.1 < b.1 := by
  induction es with
  | nil => simp [insertEntry]
  | cons x rest ih =>
    obtain ⟨n, v⟩ := x
    obtain ⟨hx, hrest⟩ := List.pairwise_cons.1 h
    simp only [insertEntry]
    split
    · rename_i hlt
      refine List.pairwise_cons.2 ⟨fun e he => ?_, h⟩
      rcases List.mem_cons.1 he with rfl | he
      · exact hlt
      · exact String.lt_trans hlt (hx e he)
    · rename_i hnlt
      split
      · rename_i heq
        exact List.pairwise_cons.2 ⟨fun e he => heq ▸ hx e he, hrest⟩
      · rename_i hne
        refine List.pairwise_cons.2 ⟨fun e he => ?_, ih hrest⟩
        rcases mem_insertEntry he with rfl | he
        · exact Std.lt_of_le_of_ne (String.not_lt.1 hnlt) (Ne.symm hne)
        · exact hx e he

/-- The arguments with the value of one name set. -/
def insert (a : Arguments) (name value : String) : Arguments :=
  ⟨insertEntry name value a.entries, insertEntry_ordered name value a.ordered⟩

/-- The arguments given by a list, the last value of a name winning. -/
def ofList (es : List (String × String)) : Arguments :=
  es.foldl (fun a e => a.insert e.1 e.2) empty

/-- Sets every value that `upper` gives. -/
def overlay (a upper : Arguments) : Arguments :=
  upper.entries.foldl (fun a e => a.insert e.1 e.2) a

/-- The arguments as a record of texts. -/
def toDatum (a : Arguments) : Datum :=
  .record (a.entries.map fun (n, v) => (n, .text v))

/-- Arguments from a record of texts. -/
def ofDatum? : Datum → Option Arguments
  | .record ms => do
    let es ← ms.mapM fun m => (Datum.text? m.2).map fun v => (m.1, v)
    some (ofList es)
  | _ => none

end Arguments

end Rollup
