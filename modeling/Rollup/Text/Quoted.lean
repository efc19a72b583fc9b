/-
Delimited texts in which the closing delimiter, met inside, is written twice. Reading back what
was written gives the text, whatever follows, provided that the next character is not the closing
delimiter.
-/

namespace Rollup.Text

/-- Writes the closing delimiter twice and everything else once. -/
def doubled (closing : Char) : List Char → List Char
  | [] => []
  | c :: rest => if c == closing then c :: c :: doubled closing rest else c :: doubled closing rest

/-- The text between its delimiters. -/
def enclose (opening closing : Char) (s : String) : String :=
  String.ofList (opening :: doubled closing s.toList ++ [closing])

/-- Reads up to the closing delimiter: the text and what follows it, `none` when it never closes. -/
def scanDoubled (closing : Char) : List Char → Option (List Char × List Char)
  | [] => none
  | [c] => if c == closing then some ([], []) else none
  | c :: d :: rest =>
    if c == closing then
      if d == closing then (scanDoubled closing rest).map fun (s, r) => (c :: s, r)
      else some ([], d :: rest)
    else (scanDoubled closing (d :: rest)).map fun (s, r) => (c :: s, r)

end Rollup.Text
