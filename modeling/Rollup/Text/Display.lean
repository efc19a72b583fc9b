/-
Texts as diagnostics show them: in quotes, with escapes for all that would not be seen.
-/
import Rollup.Text.Property.Hidden

namespace Rollup.Text

/-- A character between quotes. Line ends, tabs, quotes, backslashes and nulls have short escapes;
other unprintable characters, and those that attach themselves to the one before, have their number
in hexadecimal. -/
def displayChar (c : Char) : List Char :=
  match c with
  | '\x00' => ['\\', '0']
  | '\t' => ['\\', 't']
  | '\r' => ['\\', 'r']
  | '\n' => ['\\', 'n']
  | '\\' => ['\\', '\\']
  | '"' => ['\\', '"']
  | c =>
    if graphemeExtendSet.contains c || unprintableSet.contains c then
      ['\\', 'u', '\x7b'] ++ Nat.toDigits 16 c.toNat ++ ['\x7d']
    else [c]

/-- A text in quotes. -/
def quotedDisplay (s : String) : String :=
  String.ofList ('"' :: s.toList.flatMap displayChar ++ ['"'])

end Rollup.Text
