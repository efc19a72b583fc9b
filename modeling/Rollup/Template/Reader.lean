/-
Reading templates. The text is first cut into literals and placeholder bodies, then each body is
read on its own. Bodies are as short as they can be and do not reach over a line break.
-/
import Rollup.Template.Basic
import Rollup.Text.Blank
import Rollup.Text.Split
import Rollup.Text.Word

namespace Rollup.Template

/-! ## Cutting the text -/

/-- A literal or the body of a placeholder. -/
inductive Piece where
  | literal (text : List Char)
  | body (text : List Char)

/-- The body up to the first closing braces on this line, and what follows them. -/
def untilClose? : List Char → Option (List Char × List Char)
  | '}' :: '}' :: rest => some ([], rest)
  | '\n' :: _ => none
  | c :: rest => (untilClose? rest).map fun (body, rest) => (c :: body, rest)
  | [] => none

theorem untilClose?_length {cs body rest : List Char} (h : untilClose? cs = some (body, rest)) :
    rest.length < cs.length := by
  fun_induction untilClose? cs generalizing body rest with
  | case1 r =>
    simp only [Option.some.injEq, Prod.mk.injEq] at h
    simp only [← h.2, List.length_cons]
    omega
  | case2 => simp at h
  | case3 c r _ _ ih =>
    simp only [Option.map_eq_some_iff, Prod.mk.injEq, Prod.exists] at h
    obtain ⟨b, r', hr, -, rfl⟩ := h
    have := ih hr
    simp only [List.length_cons]
    omega
  | case4 => simp at h

/-- The placeholder at the start of the text, and what follows it. -/
def placeholder? : List Char → Option (List Char × List Char)
  | '{' :: '{' :: rest => untilClose? rest
  | _ => none

theorem placeholder?_length {cs body rest : List Char} (h : placeholder? cs = some (body, rest)) :
    rest.length < cs.length := by
  unfold placeholder? at h
  split at h
  · have := untilClose?_length h
    simp only [List.length_cons]
    omega
  · simp at h

/-- The pieces of a text whose last literal has begun with `done`, backwards. -/
def piecesFrom (done : List Char) (cs : List Char) : List Piece :=
  match _h : placeholder? cs with
  | some (body, rest) => .literal done.reverse :: .body body :: piecesFrom [] rest
  | none => match cs with
    | [] => [.literal done.reverse]
    | c :: rest => piecesFrom (c :: done) rest
termination_by cs.length
decreasing_by
  · exact placeholder?_length ‹_›
  · simp

/-- The literals and placeholder bodies of a text, in turn. -/
def pieces (text : String) : List Piece :=
  piecesFrom [] text.toList

/-! ## Placeholder bodies -/

/-- The name that a text is. -/
def identifier (cs : List Char) : Except TemplateError String :=
  if Text.isIdentifier cs then .ok (String.ofList cs) else .error (.notIdentifier (String.ofList cs))

/-- Join names before the last step, which is a column of the model or, after a dollar sign, one of
the database. -/
def readReference (body : List Char) : Except TemplateError Segment := do
  let parts := Text.splitChars '.' body
  let joins ← parts.dropLast.mapM identifier
  match parts.getLastD [] with
  | '$' :: name => return .reference joins (.physical (← identifier name))
  | name => return .reference joins (.logical (← identifier name))

/-- What follows the quoted value after an equals sign, and the value. -/
def attributeValue? (cs : List Char) : Option (List Char × List Char) :=
  match cs.dropWhile Text.isBlank with
  | '=' :: rest => match rest.dropWhile Text.isBlank with
    | '\'' :: rest => match rest.dropWhile (· != '\'') with
      | '\'' :: after => some (rest.takeWhile (· != '\''), after)
      | _ => none
    | _ => none
  | _ => none

/-- The attributes of a helper: words followed by a quoted value. Anything else is passed over. The
`word` is the run of word characters just before, backwards. -/
def attributes : (fuel : Nat) → (word : List Char) → List Char → List (List Char × List Char)
  | 0, _, _ => []
  | fuel + 1, word, cs =>
    if word.isEmpty then match cs with
      | [] => []
      | c :: rest => attributes fuel (if Text.isWordChar c then [c] else []) rest
    else match cs with
      | c :: rest =>
        if Text.isWordChar c then attributes fuel (c :: word) rest
        else match attributeValue? cs with
          | some (value, after) => (word.reverse, value) :: attributes fuel [] after
          | none => attributes fuel [] rest
      | [] => []

/-- The attributes that name the joins and the column, the last of each. -/
def helperAttributes (found : Option (List Char) × Option (List Char)) :
    List (List Char × List Char) → Except TemplateError (Option (List Char) × Option (List Char))
  | [] => .ok found
  | (name, value) :: rest =>
    let value := Text.trimChars value
    if name == "from".toList then helperAttributes (some value, found.2) rest
    else if name == "column".toList then helperAttributes (found.1, some value) rest
    else .error (.unknownAttribute (String.ofList name))

/-- The contents of bracket groups that fill the whole text. -/
def bracketGroups? : (inside : Bool) → List Char → Option (List (List Char))
  | false, [] => some []
  | true, [] => none
  | false, c :: rest => if c == '[' then bracketGroups? true rest else none
  | true, c :: rest =>
    if c == ']' then (bracketGroups? false rest).map ([] :: ·)
    else (bracketGroups? true rest).map fun
      | [] => [[c]]
      | g :: gs => (c :: g) :: gs

/-- A name and a value with a colon between. -/
def pinnedHere? (cs : List Char) : Option (String × String) :=
  let name := cs.takeWhile Text.isIdentChar
  match cs.dropWhile Text.isIdentChar with
  | ':' :: value =>
    if Text.isIdentifier name then
      some (String.ofList name, String.ofList (Text.trimChars value))
    else none
  | _ => none

/-- The name and the value given in a bracket group, at its start or after a further opening
bracket. A group without them fixes nothing. -/
def pinnedIn? (group : List Char) : Option (String × String) :=
  match pinnedHere? group with
  | some p => some p
  | none => afterBracket? group
where
  afterBracket? : List Char → Option (String × String)
    | [] => none
    | c :: rest =>
      if c == '[' then
        match pinnedHere? rest with
        | some p => some p
        | none => afterBracket? rest
      else afterBracket? rest

/-- A column with its bracket groups. -/
def readPinnedColumn (cs : List Char) : Except TemplateError (String × Arguments) :=
  let name := cs.takeWhile Text.isIdentChar
  match Text.isIdentifier name, bracketGroups? false (cs.dropWhile Text.isIdentChar) with
  | true, some groups =>
    .ok (String.ofList name, Arguments.ofList (groups.filterMap pinnedIn?))
  | _, _ => .error (.malformedColumn (String.ofList cs))

/-- A column given by attributes, with some of its arguments fixed. -/
def readHelper (body : List Char) : Except TemplateError Segment := do
  let (joins, column) ← helperAttributes (none, none) (attributes (body.length + 1) [] body)
  let some column := column | throw .noColumn
  let joins ← match joins with
    | none | some [] => pure []
    | some path => (Text.splitChars '.' path).mapM identifier
  let (name, values) ← readPinnedColumn column
  return .pinned joins name values

/-- What a placeholder stands for. -/
def readBody (body : List Char) : Except TemplateError Segment :=
  let body := Text.trimChars body
  match Text.afterChars? "$$column.args.".toList body with
  | some name => (identifier name).map .columnArgument
  | none => match Text.afterChars? "$$table.args.".toList body with
    | some name => (identifier name).map .tableArgument
    | none =>
      if body == "$$column.expr".toList then .ok .columnBase
      else if (Text.afterChars? ['$', '$'] body).isSome then
        .error (.unknownContext (String.ofList body))
      else match Text.afterChars? "sql ".toList body with
        | some attributes => readHelper attributes
        | none => readReference body

/-! ## Whole templates -/

/-- A literal must not hold double braces, and an empty one is left out. -/
def readPiece : Piece → Except TemplateError (List Segment)
  | .literal text =>
    if Text.occursChars ['{', '{'] text || Text.occursChars ['}', '}'] text then
      .error (.unbalanced (String.ofList text))
    else .ok (if text.isEmpty then [] else [.literal (String.ofList text)])
  | .body body => (readBody body).map ([·])

/-- Reads a template from left to right; the first fault counts. -/
def parse (text : String) : Except TemplateError Template :=
  ((pieces text).mapM readPiece).map List.flatten

end Rollup.Template
