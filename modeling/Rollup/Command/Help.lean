/-
The texts of help: an overview of the commands, and a page for each of them. A page has its rows in
two columns, or, in full, each head on a line of its own with what is said of it below.
-/
import Rollup.Command.Line

namespace Rollup.Command

/-- The name of the program and its version. -/
def version : String :=
  "quarry 0.1.0"

/-- Lines are broken before this many characters. -/
def lineWidth : Nat :=
  100

/-- So many spaces. -/
def spaces (n : Nat) : String :=
  String.ofList (List.replicate n ' ')

/-- Fills lines of at most `width` characters with words; a word is never broken. -/
def fill (width : Nat) (line : String) : List String → List String
  | [] => [line]
  | word :: rest =>
    if line.length + 1 + word.length ≤ width then fill width (line ++ " " ++ word) rest
    else line :: fill width word rest

/-- The lines of a text that has `width` characters for each. -/
def broken (width : Nat) (text : String) : List String :=
  match Text.split ' ' text with
  | [] => []
  | word :: rest => fill width word rest

/-- Rows in two columns. -/
def aligned (rows : List (String × String)) : List String :=
  let widest := (rows.map (·.1.length)).foldl max 0
  let margin := widest + 4
  rows.flatMap fun (head, text) =>
    match broken (lineWidth - margin) text with
    | [] => []
    | line :: rest =>
      ("  " ++ head ++ spaces (margin - 2 - head.length) ++ line) ::
        rest.map (spaces margin ++ ·)

namespace OptionForm

/-- How the option is written, by its letter and by its name. -/
def head (o : OptionForm) : String :=
  "-" ++ o.short.toString ++ ", " ++ o.written

/-- Whether its values need a line each. -/
def explainsChoices (o : OptionForm) : Bool :=
  o.choices.any (·.about.isSome)

/-- The note on the value an option has when it is absent. -/
def defaultNote (o : OptionForm) : List String :=
  (o.absent.map fun value => "[default: " ++ value ++ "]").toList

/-- The note on the values an option takes. -/
def choicesNote (o : OptionForm) : List String :=
  if o.choices.isEmpty then []
  else ["[possible values: " ++ Text.join ", " (o.choices.map (·.name)) ++ "]"]

/-- What is said of it in one line. -/
def brief (o : OptionForm) : String :=
  Text.join " " (o.about :: o.defaultNote ++ o.choicesNote)

/-- The lines on its values. -/
def choiceLines (o : OptionForm) : List String :=
  let widest := (o.choices.map (·.name.length)).foldl max 0
  o.choices.map fun c =>
    "- " ++ c.name ++ match c.about with
      | some about => ":" ++ spaces (widest + 1 - c.name.length) ++ about
      | none => ""

/-- What is said of it in full. -/
def full (o : OptionForm) : List String :=
  let notes := o.defaultNote ++ if o.explainsChoices then [] else o.choicesNote
  o.about :: (if notes.isEmpty then [] else "" :: notes)

end OptionForm

/-- Whether a page has more to say in full. -/
def Verb.hasFull (v : Verb) : Bool :=
  v.options.any (·.explainsChoices)

/-- How a command is written. -/
def Verb.usage (v : Verb) : String :=
  let required := v.options.filter (·.absent.isNone)
  let optional := if required.length < v.options.length then " [OPTIONS]" else ""
  "Usage: quarry " ++ v.name ++ optional ++ String.join (required.map fun o => " " ++ o.written)

/-- The page of a command, briefly. -/
def Verb.brief (v : Verb) : List String :=
  let more := if v.hasFull then " (see more with '--help')" else ""
  [v.about, "", v.usage, "", "Options:"] ++
    aligned (v.options.map (fun o => (o.head, o.brief)) ++ [("-h, --help", "Print help" ++ more)])

/-- The rows that tell of an option in full. -/
def OptionForm.rows (o : OptionForm) : List String :=
  let below := spaces 10
  ("  " ++ o.head) :: o.full.map (below ++ ·) ++
    (if o.explainsChoices then
      ["", below ++ "Possible values:"] ++ o.choiceLines.map (below ++ ·)
    else []) ++ [""]

/-- The page of a command in full. -/
def Verb.full (v : Verb) : List String :=
  [v.about, "", v.usage, "", "Options:"] ++ v.options.flatMap (·.rows) ++
    ["  -h, --help", spaces 10 ++ "Print help (see a summary with '-h')"]

/-- What the help says of itself. -/
def helpAbout : String :=
  "Print this message or the help of the given subcommand(s)"

/-- The lines of a page. -/
def Page.lines : Page → List String
  | overview =>
    ["Quarry - compile analytic queries over a metadata model to SQL", "",
      "Usage: quarry <COMMAND>", "", "Commands:"] ++
    aligned (Verb.all.map (fun v => (v.name, v.about)) ++ [("help", helpAbout)]) ++
    ["", "Options:"] ++
    aligned [("-h, --help", "Print help"), ("-V, --version", "Print version")]
  | verb v full => if full && v.hasFull then v.full else v.brief
  | help =>
    [helpAbout, "", "Usage: quarry help [COMMAND]...", "", "Arguments:"] ++
    aligned [("[COMMAND]...", "Print help for the subcommand(s)")]

/-- What is said of wrong arguments. -/
def UsageError.message : UsageError → String
  | noCommand => "a command is required"
  | unknownCommand name => "unrecognized subcommand '" ++ name ++ "'"
  | unexpected argument => "unexpected argument '" ++ argument ++ "' found"
  | missingValue o => "a value is required for '" ++ o.written ++ "' but none was supplied"
  | invalidValue o value => "invalid value '" ++ value ++ "' for '" ++ o.written ++ "'"
  | valueForFlag argument => "unexpected value in '" ++ argument ++ "'"
  | repeated o => "the argument '" ++ o.written ++ "' cannot be used multiple times"
  | missing options =>
    "the following required arguments were not provided: " ++
      Text.join ", " (options.map (·.written))

end Rollup.Command
