/-
Cutting texts at a character, and putting pieces together again. Cutting always yields one piece
more than there are separators, so `split` never answers the empty list.
-/

namespace Rollup.Text

/-- The pieces between the occurrences of `sep`. -/
def splitChars (sep : Char) : List Char → List (List Char)
  | [] => [[]]
  | c :: rest =>
    if c == sep then [] :: splitChars sep rest
    else match splitChars sep rest with
      | [] => [[c]]
      | piece :: pieces => (c :: piece) :: pieces

/-- The pieces of a text between the occurrences of `sep`. -/
def split (sep : Char) (s : String) : List String :=
  (splitChars sep s.toList).map String.ofList

/-- What stands before and after the first `sep`. -/
def splitFirst? (sep : Char) (s : String) : Option (String × String) :=
  match s.toList.dropWhile (· != sep) with
  | [] => none
  | _ :: rest => some (String.ofList (s.toList.takeWhile (· != sep)), String.ofList rest)

/-- What follows `head`, when the text begins with it. -/
def afterChars? : (head text : List Char) → Option (List Char)
  | [], text => some text
  | _ :: _, [] => none
  | h :: head, c :: text => if h == c then afterChars? head text else none

/-- What follows a character, when the text begins with it. -/
def afterChar? (c : Char) : List Char → Option (List Char)
  | d :: rest => if c == d then some rest else none
  | [] => none

/-- What follows `head`, when the text begins with it. -/
def after? (head text : String) : Option String :=
  (afterChars? head.toList text.toList).map String.ofList

/-- Whether `part` occurs in the text. -/
def occursChars (part : List Char) : List Char → Bool
  | [] => part.isEmpty
  | c :: rest => (afterChars? part (c :: rest)).isSome || occursChars part rest

/-- The text with every `old` written as `new`. -/
def substitute (old : Char) (new : List Char) (s : String) : String :=
  String.ofList (s.toList.flatMap fun c => if c == old then new else [c])

/-- The pieces in a row, `sep` between neighbours. -/
def join (sep : String) : List String → String
  | [] => ""
  | [piece] => piece
  | piece :: pieces => piece ++ sep ++ join sep pieces

end Rollup.Text
