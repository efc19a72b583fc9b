/-
Writing JSON text: on one line without blanks, or spread over lines with two blanks to a level.
-/
import Rollup.Datum.Basic
import Rollup.Number.Notation
import Rollup.Text.Split

namespace Rollup.Json

/-- A hexadecimal digit in lower case. -/
def hexChar (n : Nat) : Char :=
  Nat.digitChar n

/-- A character inside a string. Quote, backslash and controls are escaped. -/
def escaped (c : Char) : List Char :=
  match c with
  | '"' => ['\\', '"']
  | '\\' => ['\\', '\\']
  | '\x08' => ['\\', 'b']
  | '\t' => ['\\', 't']
  | '\n' => ['\\', 'n']
  | '\x0c' => ['\\', 'f']
  | '\r' => ['\\', 'r']
  | c =>
    if c.toNat < 0x20 then ['\\', 'u', '0', '0', hexChar (c.toNat / 16), hexChar (c.toNat % 16)]
    else [c]

/-- A text in quotes, with escapes. -/
def stringText (s : String) : String :=
  String.ofList ('"' :: s.toList.flatMap escaped ++ ['"'])

/-- A number; what is not finite is null. -/
def realText (x : Double) : String :=
  if x.isFinite then Double.Format.json.write x else "null"

/-- The word for a truth value. -/
def boolText (b : Bool) : String :=
  if b then "true" else "false"

mutual

/-- The text on one line. -/
def write : Datum → String
  | .null => "null"
  | .bool b => boolText b
  | .int n => toString n
  | .real x => realText x
  | .text s => stringText s
  | .list items => "[" ++ Text.join "," (writeItems items) ++ "]"
  | .record ms => "\x7b" ++ Text.join "," (writeMembers ms) ++ "\x7d"

/-- The texts of the items of a list. -/
def writeItems : List Datum → List String
  | [] => []
  | d :: rest => write d :: writeItems rest

/-- The texts of the members of a record, with their keys. -/
def writeMembers : List (String × Datum) → List String
  | [] => []
  | (k, d) :: rest => (stringText k ++ ":" ++ write d) :: writeMembers rest

end

/-- A new line at the given level. -/
def lineStart (level : Nat) : String :=
  String.ofList ('\n' :: List.replicate (2 * level) ' ')

/-- Items on lines of their own between brackets; none at all when there are no items. -/
def spread (opening closing : String) (level : Nat) (items : List String) : String :=
  if items.isEmpty then opening ++ closing
  else
    opening ++ lineStart (level + 1) ++ Text.join ("," ++ lineStart (level + 1)) items ++
      lineStart level ++ closing

mutual

/-- The text spread over lines, the value itself standing at the given level. -/
def writeSpread (level : Nat) : Datum → String
  | .list items => spread "[" "]" level (spreadItems (level + 1) items)
  | .record ms => spread "\x7b" "\x7d" level (spreadMembers (level + 1) ms)
  | d => write d

/-- The texts of the items of a list, each spread over lines at a level. -/
def spreadItems (level : Nat) : List Datum → List String
  | [] => []
  | d :: rest => writeSpread level d :: spreadItems level rest

/-- The texts of the members of a record, with their keys, each spread over lines at a level. -/
def spreadMembers (level : Nat) : List (String × Datum) → List String
  | [] => []
  | (k, d) :: rest => (stringText k ++ ": " ++ writeSpread level d) :: spreadMembers level rest

end

/-- The text spread over lines. -/
def writePretty (d : Datum) : String :=
  writeSpread 0 d

end Rollup.Json
