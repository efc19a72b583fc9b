/-
Reading TOML documents: statements of one line each, which name tables or give keys their values.
-/
import Rollup.Toml.Scalar
import Rollup.Toml.Tree
import Rollup.Json.Reader

namespace Rollup.Toml

/-! ## Blanks, comments, line ends -/

/-- The blanks inside a line: spaces and tabs. -/
def isBlank (c : Char) : Bool :=
  c == ' ' || c == '\t'

/-- The text without the blanks it begins with. -/
def skipBlanks (cs : List Char) : List Char :=
  cs.dropWhile isBlank

/-- Whether a character may stand nowhere but as a line end. -/
def isControl (c : Char) : Bool :=
  (c.toNat < 0x20 && c != '\t') || c == '\x7f'

/-- What follows the rest of a line on which nothing but blanks and a comment stands. -/
def lineEnd? : (inComment : Bool) → List Char → Option (List Char)
  | _, [] => some []
  | _, '\n' :: rest => some rest
  | _, '\r' :: '\n' :: rest => some rest
  | true, c :: rest => if isControl c then none else lineEnd? true rest
  | false, c :: rest =>
    if c == '#' then lineEnd? true rest else if isBlank c then lineEnd? false rest else none

/-- What follows blanks, comments and line ends. -/
def skipLines? : (inComment : Bool) → List Char → Option (List Char)
  | _, [] => some []
  | _, '\n' :: rest => skipLines? false rest
  | _, '\r' :: '\n' :: rest => skipLines? false rest
  | true, c :: rest => if isControl c then none else skipLines? true rest
  | false, c :: rest =>
    if c == '#' then skipLines? true rest
    else if isBlank c then skipLines? false rest else some (c :: rest)

/-! ## Strings -/

/-- The character with the code that some hexadecimal digits give. -/
def codePoint? (count : Nat) (cs : List Char) : Option (Char × List Char) := do
  if cs.length < count then none
  let ds ← (cs.take count).mapM Json.hexDigit?
  let n := ds.foldl (fun n d => 16 * n + d) 0
  if n < 0xD800 || (0xDFFF < n && n < 0x110000) then some (Char.ofNat n, cs.drop count) else none

/-- What a backslash and the text after it stand for. -/
def escape? : List Char → Option (Char × List Char)
  | 'b' :: rest => some ('\x08', rest)
  | 't' :: rest => some ('\t', rest)
  | 'n' :: rest => some ('\n', rest)
  | 'f' :: rest => some ('\x0c', rest)
  | 'r' :: rest => some ('\r', rest)
  | 'e' :: rest => some ('\x1b', rest)
  | '"' :: rest => some ('"', rest)
  | '\\' :: rest => some ('\\', rest)
  | 'x' :: rest => codePoint? 2 rest
  | 'u' :: rest => codePoint? 4 rest
  | 'U' :: rest => codePoint? 8 rest
  | _ => none

/-- The text up to the closing quote, on one line; a backslash has a meaning only when `escapes`. -/
def line? (quote : Char) (escapes : Bool) : (fuel : Nat) → List Char → Option (List Char × List Char)
  | 0, _ | _ + 1, [] => none
  | fuel + 1, c :: rest =>
    if c == quote then some ([], rest)
    else if c == '\\' && escapes then do
      let (c, rest) ← escape? rest
      let (cs, rest) ← line? quote escapes fuel rest
      some (c :: cs, rest)
    else if isControl c then none
    else (line? quote escapes fuel rest).map fun (cs, rest) => (c :: cs, rest)

/-- What follows a backslash at the end of a line: the first character that is no blank. -/
def joinedLine? (cs : List Char) : Option (List Char) :=
  match skipBlanks cs with
  | '\n' :: rest => some (skipAll rest)
  | '\r' :: '\n' :: rest => some (skipAll rest)
  | _ => none
where
  skipAll (cs : List Char) : List Char :=
    cs.dropWhile fun c => isBlank c || c == '\n' || c == '\r'

/-- The text up to three closing quotes, two more of which may belong to the text. -/
def lines? (quote : Char) (escapes : Bool) :
    (fuel : Nat) → List Char → Option (List Char × List Char)
  | 0, _ | _ + 1, [] => none
  | fuel + 1, '\n' :: rest => (lines? quote escapes fuel rest).map fun (cs, rest) => ('\n' :: cs, rest)
  | fuel + 1, '\r' :: '\n' :: rest =>
    (lines? quote escapes fuel rest).map fun (cs, rest) => ('\r' :: '\n' :: cs, rest)
  | fuel + 1, c :: rest =>
    let quotes := (c :: rest).takeWhile (· == quote)
    if 3 ≤ quotes.length then
      if quotes.length ≤ 5 then some (quotes.drop 3, (c :: rest).drop quotes.length) else none
    else if c == '\\' && escapes then
      match joinedLine? rest with
      | some rest => lines? quote escapes fuel rest
      | none => do
        let (c, rest) ← escape? rest
        let (cs, rest) ← lines? quote escapes fuel rest
        some (c :: cs, rest)
    else if isControl c then none
    else (lines? quote escapes fuel rest).map fun (cs, rest) => (c :: cs, rest)

/-- The text without a line end at its start. -/
def dropLineEnd : List Char → List Char
  | '\n' :: rest => rest
  | '\r' :: '\n' :: rest => rest
  | cs => cs

/-- A string, its first quote already taken. -/
def string? (quote : Char) (cs : List Char) : Option (String × List Char) :=
  let escapes := quote == '"'
  let found := if cs.take 2 == [quote, quote] then
      lines? quote escapes (cs.length + 1) (dropLineEnd (cs.drop 2))
    else line? quote escapes (cs.length + 1) cs
  found.map fun (s, rest) => (String.ofList s, rest)

/-! ## Keys -/

/-- The characters of a key without quotes. -/
def isKeyChar (c : Char) : Bool :=
  c.isAlphanum || c == '_' || c == '-'

/-- One part of a key. -/
def keyPart? : List Char → Option (String × List Char)
  | [] => none
  | c :: rest =>
    if c == '"' || c == '\'' then
      (line? c (c == '"') (rest.length + 1) rest).map fun (s, rest) => (String.ofList s, rest)
    else
      let part := (c :: rest).takeWhile isKeyChar
      if part.isEmpty then none else some (String.ofList part, (c :: rest).dropWhile isKeyChar)

/-- A key: the parts before the last, the last, and what follows. -/
def key? : (fuel : Nat) → List Char → Option (List String × String × List Char)
  | 0, _ => none
  | fuel + 1, cs => do
    let (part, rest) ← keyPart? (skipBlanks cs)
    match skipBlanks rest with
    | '.' :: rest => do
      let (way, last, rest) ← key? fuel rest
      some (part :: way, last, rest)
    | rest => some ([], part, rest)

/-! ## Values -/

/-- The characters of a value without quotes, be it a number, a date or a word. -/
def isWordChar (c : Char) : Bool :=
  c.isAlphanum || c == '_' || c == '+' || c == '-' || c == '.' || c == ':'

/-- The longest word; a blank belongs to it where it parts a date from a time. -/
def takeWord (cs : List Char) : List Char × List Char :=
  let word := cs.takeWhile isWordChar
  match date? word, cs.dropWhile isWordChar with
  | some [], ' ' :: c :: rest =>
    if c.isDigit then
      (word ++ ' ' :: (c :: rest).takeWhile isWordChar, (c :: rest).dropWhile isWordChar)
    else (word, ' ' :: c :: rest)
  | _, rest => (word, rest)

/-- The number of arrays and inline tables that may stand inside one another. -/
def maxDepth : Nat := 80

mutual

/-- A value. -/
def value? : (fuel depth : Nat) → List Char → Option (Datum × List Char)
  | 0, _, _ => none
  | _ + 1, _, '"' :: rest => (string? '"' rest).map fun (s, rest) => (.text s, rest)
  | _ + 1, _, '\'' :: rest => (string? '\'' rest).map fun (s, rest) => (.text s, rest)
  | fuel + 1, depth, '[' :: rest =>
    if depth == 0 then none
    else (items? fuel (depth - 1) rest).map fun (ds, rest) => (.list ds, rest)
  | fuel + 1, depth, '{' :: rest =>
    if depth == 0 then none
    else (members? fuel (depth - 1) [] rest).map fun (ms, rest) => (.record (membersDatum ms), rest)
  | _ + 1, _, cs =>
    let (word, rest) := takeWord cs
    (scalar? word).map fun d => (d, rest)

/-- The items up to the closing bracket; a comma may stand after the last one. -/
def items? : (fuel depth : Nat) → List Char → Option (List Datum × List Char)
  | 0, _, _ => none
  | fuel + 1, depth, cs => do
    match ← skipLines? false cs with
    | ']' :: rest => some ([], rest)
    | cs => do
      let (d, rest) ← value? fuel depth cs
      match ← skipLines? false rest with
      | ',' :: rest => do
        let (ds, rest) ← items? fuel depth rest
        some (d :: ds, rest)
      | ']' :: rest => some ([d], rest)
      | _ => none

/-- The members of an inline table up to the closing brace, after those found before. -/
def members? : (fuel depth : Nat) → Members → List Char → Option (Members × List Char)
  | 0, _, _, _ => none
  | fuel + 1, depth, found, cs => do
    match ← skipLines? false cs with
    | '}' :: rest => some (found, rest)
    | cs => do
      let (way, key, rest) ← key? (cs.length + 1) cs
      let rest ← Text.afterChar? '=' rest
      let (d, rest) ← value? fuel depth (skipBlanks rest)
      let found ← Members.insert? way key d found
      match ← skipLines? false rest with
      | ',' :: rest => members? fuel depth found rest
      | '}' :: rest => some (found, rest)
      | _ => none

end

/-! ## Documents -/

/-- A document while it is read, and the table that keys are put into. -/
structure State where
  root : Members := []
  way : List String := []

/-- Reads one statement. -/
def statement? (s : State) : List Char → Option (State × List Char)
  | '[' :: '[' :: cs => do
    let (way, key, rest) ← key? (cs.length + 1) cs
    let rest ← (Text.afterChar? ']' rest).bind (Text.afterChar? ']')
    some (⟨← Members.openItem? way key s.root, way ++ [key]⟩, rest)
  | '[' :: cs => do
    let (way, key, rest) ← key? (cs.length + 1) cs
    let rest ← Text.afterChar? ']' rest
    some (⟨← Members.openTable? way key s.root, way ++ [key]⟩, rest)
  | cs => do
    let (way, key, rest) ← key? (cs.length + 1) cs
    let rest ← Text.afterChar? '=' rest
    let (d, rest) ← value? (2 * cs.length + 2) maxDepth (skipBlanks rest)
    some ({ s with root := ← Members.along? false (Members.insert? way key d) s.way s.root }, rest)

/-- Reads statements to the end of the text. -/
def statements? : (fuel : Nat) → State → List Char → Option State
  | 0, _, _ => none
  | fuel + 1, s, cs => do
    match ← skipLines? false cs with
    | [] => some s
    | cs => do
      let (s, rest) ← statement? s cs
      statements? fuel s (← lineEnd? false rest)

/-- The data a document holds. -/
def read? (text : String) : Option Datum :=
  let cs := match text.toList with
    | '\ufeff' :: rest => rest
    | cs => cs
  (statements? (cs.length + 1) {} cs).map fun s => .record (membersDatum s.root)

end Rollup.Toml
