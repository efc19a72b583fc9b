/-
Reading the arguments of the command line. They are read from left to right, and the first that
asks for help, or cannot be understood, ends the reading.
-/
import Rollup.Command.Option
import Rollup.Text.Split

namespace Rollup.Command

/-- A page of help. -/
inductive Page where
  | overview
  /-- The options of a command, briefly or in full. -/
  | verb (v : Verb) (full : Bool)
  /-- What asking for help is itself about. -/
  | help
  deriving DecidableEq, Repr

/-- What is wrong with the arguments. -/
inductive UsageError where
  | noCommand
  | unknownCommand (name : String)
  | unexpected (argument : String)
  | missingValue (o : OptionForm)
  | invalidValue (o : OptionForm) (value : String)
  | valueForFlag (argument : String)
  | repeated (o : OptionForm)
  | missing (options : List OptionForm)
  deriving DecidableEq, Repr

/-- Why nothing is to be done. -/
inductive Stop where
  | help (page : Page)
  | version
  | usage (e : UsageError)
  deriving DecidableEq, Repr

/-- What is to be done, with all that it needs. -/
inductive Job where
  | explain (model query : String) (dialect : Dialect) (layout : Layout)
  | run (config model query : String)
  | validate (model : String)
  | list (model : String)
  deriving DecidableEq, Repr

/-- The options given so far with their values. -/
abbrev Given := List (OptionForm × String)

/-- What an argument says by its form. -/
inductive Argument where
  /-- Two dashes, after which nothing is an option. -/
  | separator
  /-- A name after two dashes, with the value after a `=` if there is one. -/
  | long (name : String) (value : Option String)
  /-- A letter after one dash, and what follows it. -/
  | short (letter : Char) (rest : List Char)
  | plain (text : String)
  deriving DecidableEq, Repr

/-- What an argument is, by the dashes it begins with. -/
def Argument.ofText (text : String) : Argument :=
  match text.toList with
  | ['-', '-'] => .separator
  | '-' :: '-' :: name =>
    match Text.splitFirst? '=' (String.ofList name) with
    | some (name, value) => .long name (some value)
    | none => .long (String.ofList name) none
  | '-' :: letter :: rest => .short letter rest
  | _ => .plain text

/-- A value written behind the letter of its option, with or without a `=`. -/
def attached? : List Char → Option String
  | [] => none
  | '=' :: value => some (String.ofList value)
  | value => some (String.ofList value)

/-- Gives an option its value, which it may be given only once. -/
def give (given : Given) (o : OptionForm) (value : String) : Except UsageError Given :=
  if given.any (·.1 == o) then .error (.repeated o)
  else if o.allows value then .ok (given ++ [(o, value)])
  else .error (.invalidValue o value)

/-- What an argument of a command asks for. -/
inductive Asked where
  | help (full : Bool)
  | option (o : OptionForm) (value : Option String)
  | nothing

/-- Looks an argument up among the options of a command. -/
def asked (v : Verb) (text : String) : Except UsageError Asked :=
  match Argument.ofText text with
  | .separator => .ok .nothing
  | .long "help" none => .ok (.help true)
  | .long "help" (some _) => .error (.valueForFlag text)
  | .long name value =>
    match v.options.find? (·.long == name) with
    | some o => .ok (.option o value)
    | none => .error (.unexpected text)
  | .short 'h' _ => .ok (.help false)
  | .short letter rest =>
    match v.options.find? (·.short == letter) with
    | some o => .ok (.option o (attached? rest))
    | none => .error (.unexpected text)
  | .plain _ => .error (.unexpected text)

/-- The options among the arguments of a command. -/
def scan (v : Verb) (given : Given) : List String → Except Stop Given
  | [] => .ok given
  | text :: rest => do
    match ← (asked v text).mapError .usage, rest with
    | .help full, _ => .error (.help (.verb v full))
    | .nothing, [] => .ok given
    | .nothing, extra :: _ => .error (.usage (.unexpected extra))
    | .option o (some value), rest => scan v (← (give given o value).mapError .usage) rest
    | .option o none, [] => .error (.usage (.missingValue o))
    | .option o none, value :: rest =>
      match Argument.ofText value with
      | .plain value => scan v (← (give given o value).mapError .usage) rest
      | _ => .error (.usage (.missingValue o))

/-- The value of an option, what stands for it if it is not given. -/
def valueOf (given : Given) (o : OptionForm) : String :=
  ((given.lookup o).or o.absent).getD ""

/-- What a command with these options is to do. -/
def job (v : Verb) (given : Given) : Except UsageError Job :=
  match v.options.filter fun o => o.absent.isNone && (given.lookup o).isNone with
  | [] => .ok (
    let value := valueOf given
    match v with
    | .explain => .explain (value .model) (value .query)
      ((Dialect.all.find? (·.name == value .dialect)).getD .duckdb)
      ((Layout.all.find? (·.name == value .output)).getD .sql)
    | .run => .run (value .config) (value .model) (value .query)
    | .validate => .validate (value .model)
    | .list => .list (value .model))
  | missing => .error (.missing missing)

/-- The page that help is asked for. -/
def pageFor : List String → Except UsageError Page
  | [] => .ok .overview
  | name :: rest =>
    match if name == "help" then some Page.help
        else (Verb.all.find? (·.name == name)).map (.verb · true), rest with
    | none, _ => .error (.unknownCommand name)
    | some page, [] => .ok page
    | some _, extra :: _ => .error (.unknownCommand extra)

/-- What the arguments ask for. -/
def read : List String → Except Stop Job
  | [] => .error (.usage .noCommand)
  | text :: rest =>
    match Argument.ofText text with
    | .long "help" none | .short 'h' _ => .error (.help .overview)
    | .long "version" none | .short 'V' _ => .error .version
    | .plain "help" =>
      match pageFor rest with
      | .ok page => .error (.help page)
      | .error e => .error (.usage e)
    | .plain name =>
      match Verb.all.find? (·.name == name) with
      | some v => do (job v (← scan v [] rest)).mapError .usage
      | none => .error (.usage (.unknownCommand name))
    | .separator => .error (.usage .noCommand)
    | _ => .error (.usage (.unexpected text))

end Rollup.Command
