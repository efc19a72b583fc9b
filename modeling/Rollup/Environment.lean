/-
Texts that name variables of the environment, as `$name` or as `${name}`. Expanding puts in the
values; what a value says is not expanded again, and a `$` that starts no reference stands for
itself.
-/
import Rollup.Text.Split

namespace Rollup

/-- The variables of an environment with their values. -/
abbrev Environment := List (String × String)

/-- A name that is not in the environment. -/
structure MissingVariable where
  name : String
  deriving DecidableEq, Repr

namespace Environment

/-- A part of a text: a character, or a variable to be put in. -/
inductive Piece where
  | literal (c : Char)
  | variable (name : String)
  deriving DecidableEq, Repr

/-- The characters a name without braces can start with. -/
def isNameStart (c : Char) : Bool :=
  ('A' ≤ c && c ≤ 'Z') || ('a' ≤ c && c ≤ 'z') || c == '_'

/-- The characters such a name can go on with. -/
def isNamePart (c : Char) : Bool :=
  isNameStart c || ('0' ≤ c && c ≤ '9')

/-- The name referred to after a `$`, and what follows the reference. Between braces every name is
allowed. -/
def reference? : List Char → Option (List Char × List Char)
  | [] => none
  | '{' :: rest =>
    match rest.dropWhile (· != '}') with
    | [] => none
    | _ :: after => some (rest.takeWhile (· != '}'), after)
  | c :: rest =>
    if isNameStart c then some (c :: rest.takeWhile isNamePart, rest.dropWhile isNamePart)
    else none

theorem length_dropWhile_le (p : Char → Bool) (cs : List Char) :
    (cs.dropWhile p).length ≤ cs.length := by
  induction cs with
  | nil => simp
  | cons c rest ih => rw [List.dropWhile_cons]; split <;> simp; omega

theorem length_of_reference? {cs name after : List Char} (h : reference? cs = some (name, after)) :
    after.length < cs.length := by
  unfold reference? at h
  split at h
  · contradiction
  · rename_i rest
    split at h
    · contradiction
    · rename_i after' hd
      simp only [Option.some.injEq, Prod.mk.injEq] at h
      have := length_dropWhile_le (· != '}') rest
      rw [hd] at this
      simp only [List.length_cons, ← h.2] at this ⊢
      omega
  · rename_i c rest _
    split at h
    · simp only [Option.some.injEq, Prod.mk.injEq] at h
      have := length_dropWhile_le isNamePart rest
      simp only [List.length_cons, ← h.2]
      omega
    · contradiction

/-- The parts of a text. -/
def pieces : List Char → List Piece
  | [] => []
  | '$' :: rest =>
    match _h : reference? rest with
    | some (name, after) => .variable (String.ofList name) :: pieces after
    | none => .literal '$' :: pieces rest
  | c :: rest => .literal c :: pieces rest
termination_by cs => cs.length
decreasing_by
  all_goals simp only [List.length_cons]
  · have := length_of_reference? _h
    omega
  all_goals omega

/-- The variables a text names. -/
def names (text : String) : List String :=
  (pieces text.toList).filterMap fun
    | .literal _ => none
    | .variable name => some name

/-- The value of a variable: what follows `name=` in one of the entries `variable=value`. -/
def value? (env : Environment) (name : String) : Option String :=
  env.findSome? fun (n, v) => Text.after? (name ++ "=") (n ++ "=" ++ v)

/-- What a part of a text becomes: itself, or the value of the variable. -/
def Piece.expand (env : Environment) : Piece → Except MissingVariable String
  | .literal c => .ok (String.singleton c)
  | .variable name =>
    match env.value? name with
    | some v => .ok v
    | none => .error ⟨name⟩

/-- The text with the values of its variables put in; the first that is missing is the error. -/
def expand (env : Environment) (text : String) : Except MissingVariable String := do
  let parts ← (pieces text.toList).mapM (Piece.expand env)
  .ok (String.join parts)

end Environment

end Rollup
