import TaskRevision.Json.Writer
import TaskRevision.Text.Cut
import TaskRevision.Update.Strings
/-!
# Arguments

The command line is `taskdef [--log-format F] update|get …`.  Arguments are read from left to right;
the first that does not fit ends the reading, and so does a request for help or for the version.
An option takes its value behind an equals sign or from the next argument, which then must not look
like an option.  Behind `--` no argument is an option.

* `Setting` — the options, with the variables that stand in for those that are not given;
* `Word` — what an argument looks like;
* `scan` — the options and the field that the arguments give;
* `Command.ofArguments` — the command that the arguments and the variables ask for.
-/

namespace TaskRevision.CommandLine

open Update (Kind Strings)

/-! ## Options -/

/-- An option. -/
inductive Setting where
  /-- The format of diagnostics. -/
  | logFormat
  /-- The task definition itself. -/
  | document
  /-- The path of a file with the task definition. -/
  | file
  /-- The update string of a kind. -/
  | updates (kind : Kind)
  /-- Whether to lay the result out in lines. -/
  | pretty
deriving DecidableEq, Repr

/-- Where an argument stands: before the name of the command, or behind it. -/
inductive Level where
  /-- Before the name of the command. -/
  | top
  /-- Behind `update`. -/
  | update
  /-- Behind `get`. -/
  | get
deriving DecidableEq, Repr

namespace Setting

/-- The name of an option, without the hyphens in front. -/
def name : Setting → String
  | .logFormat => "log-format"
  | .document => "task-definition"
  | .file => "task-definition-file"
  | .updates .image => "image-updates"
  | .updates .environment => "env-updates"
  | .updates .dockerLabel => "docker-label-updates"
  | .updates .secret => "secret-updates"
  | .pretty => "pretty"

/-- The variable that stands in for an option that is not given. -/
def fallback : Setting → Option String
  | .document => some "TASKDEF_TASK_DEFINITION"
  | .updates .image => some "TASKDEF_IMAGE_UPDATES"
  | .updates .environment => some "TASKDEF_ENV_UPDATES"
  | .updates .dockerLabel => some "TASKDEF_DOCKER_LABEL_UPDATES"
  | .updates .secret => some "TASKDEF_SECRET_UPDATES"
  | _ => none

/-- The options that may stand at a level. -/
def allowed : Level → List Setting
  | .top => [.logFormat]
  | .update => [.logFormat, .document, .file, .pretty] ++ Kind.all.map updates
  | .get => [.logFormat, .document, .file]

/-- The option of the given name at a level. -/
def ofName? (level : Level) (word : String) : Option Setting :=
  (allowed level).find? (·.name = word)

/-- Whether an option takes a value. -/
def takesValue (setting : Setting) : Bool := setting != .pretty

/-- Whether an option may have the given value. -/
def accepts : Setting → String → Bool
  | .logFormat, value => ["text", "json"].contains value
  | .file, value => value != ""
  | _, _ => true

end Setting

/-! ## Words -/

/-- What an argument looks like. -/
inductive Word where
  /-- Two hyphens alone. -/
  | escape
  /-- A name behind two hyphens, and the text behind its equals sign if there is one. -/
  | long (name : String) (value : Option String)
  /-- A letter behind one hyphen. -/
  | short (letter : Char)
  /-- Anything else, one hyphen alone among it. -/
  | plain (text : String)
deriving DecidableEq, Repr

/-- What the argument looks like. -/
def Word.ofArgument (argument : String) : Word :=
  match argument.toList with
  | ['-', '-'] => .escape
  | '-' :: '-' :: s =>
    match Text.cutFirstL? '=' s with
    | some (name, value) => .long (String.ofList name) (some (String.ofList value))
    | none => .long (String.ofList s) none
  | '-' :: letter :: _ => .short letter
  | _ => .plain argument

/-! ## Reading arguments -/

/-- Why arguments do not fit. -/
inductive Misuse where
  /-- No command is named. -/
  | noCommand
  /-- There is no such command. -/
  | unknownCommand (word : String)
  /-- There is no such option here. -/
  | unknownOption (word : String)
  /-- An argument stands where none is asked for. -/
  | surplus (word : String)
  /-- An option lacks its value. -/
  | noValue (setting : Setting)
  /-- An option that takes no value has one. -/
  | unexpectedValue (name : String)
  /-- An option has a value that it may not have. -/
  | badValue (setting : Setting) (value : String)
  /-- An option is given twice. -/
  | repeated (setting : Setting)
  /-- No field is named. -/
  | noField
  /-- Both the task definition and a file with it are given. -/
  | conflict
deriving DecidableEq, Repr

/-- The words for a misuse.  They are no part of what the program promises, and nothing rests on them. -/
def Misuse.message : Misuse → String
  | .noCommand => "a command is required: `update` or `get`"
  | .unknownCommand word => "unknown command `" ++ word ++ "`"
  | .unknownOption word => "unexpected option `" ++ word ++ "`"
  | .surplus word => "unexpected argument `" ++ word ++ "`"
  | .noValue setting => "`--" ++ setting.name ++ "` needs a value"
  | .unexpectedValue name => "`--" ++ name ++ "` takes no value"
  | .badValue setting value => "`" ++ value ++ "` is no value for `--" ++ setting.name ++ "`"
  | .repeated setting => "`--" ++ setting.name ++ "` is given twice"
  | .noField => "the name of a field is required"
  | .conflict =>
    "`--" ++ Setting.document.name ++ "` and `--" ++ Setting.file.name ++ "` exclude each other"

/-- What ends the reading of arguments early. -/
inductive Stop where
  /-- A request for help. -/
  | help
  /-- A request for the version. -/
  | version
  /-- Arguments that do not fit. -/
  | misuse (why : Misuse)
deriving DecidableEq, Repr

/-- What the arguments at a level give. -/
structure Given where
  /-- The options with their values. -/
  settings : List (Setting × String) := []
  /-- The field, if one is named. -/
  field : Option String := none
  /-- The format of diagnostics, if one is given before the name of the command. -/
  ahead : Option String := none
deriving Repr

/-- The value of an option, if it is given. -/
def Given.value? (given : Given) (setting : Setting) : Option String :=
  given.settings.lookup setting

/-- Takes in an option with its value. -/
def Given.add (given : Given) (setting : Setting) (value : String) : Except Stop Given :=
  if (given.value? setting).isSome then .error (.misuse (.repeated setting))
  else if setting.accepts value then
    .ok { given with settings := given.settings ++ [(setting, value)] }
  else .error (.misuse (.badValue setting value))

/-- Takes in an argument that is neither an option nor its value. -/
def Given.addField (given : Given) (level : Level) (text : String) : Except Stop Given :=
  match level, given.field with
  | .top, _ => .error (.misuse (.unknownCommand text))
  | .get, none => .ok { given with field := some text }
  | _, _ => .error (.misuse (.surplus text))

/-- Takes in an option as it is written, without the value in the next argument; hands back the
option if it still needs that. -/
def Given.addLong (given : Given) (level : Level) (name : String) (value : Option String) :
    Except Stop (Given × Option Setting) :=
  match Setting.ofName? level name, value with
  | some setting, some value =>
    if setting.takesValue then do
      let given ← given.add setting value
      .ok (given, none)
    else .error (.misuse (.unexpectedValue name))
  | some setting, none =>
    if setting.takesValue then .ok (given, some setting)
    else do
      let given ← given.add setting ""
      .ok (given, none)
  | none, value =>
    let asked : Option Stop :=
      if name = "help" then some .help
      else if name = "version" && level = .top then some .version
      else none
    match asked, value with
    | some stop, none => .error stop
    | some _, some _ => .error (.misuse (.unexpectedValue name))
    | none, _ => .error (.misuse (.unknownOption ("--" ++ name)))

/-- What a letter behind a hyphen asks for. -/
def Stop.ofLetter (level : Level) (letter : Char) : Stop :=
  if letter = 'h' then .help
  else if letter = 'V' && level = .top then .version
  else .misuse (.unknownOption (String.ofList ['-', letter]))

/-- What the arguments behind `help` ask for. -/
def Stop.ofTopics : List String → Stop
  | [] => .help
  | [topic] =>
    if ["update", "get", "help"].contains topic then .help else .misuse (.unknownCommand topic)
  | _ :: topic :: _ => .misuse (.unknownCommand topic)

/-- What the arguments give from a level on.  An option may wait for its value, and `escaped` says
whether `--` has been met. -/
def scan (level : Level) (given : Given) (waiting : Option Setting) (escaped : Bool) :
    List String → Except Stop (Level × Given)
  | [] =>
    match waiting with
    | some setting => .error (.misuse (.noValue setting))
    | none => .ok (level, given)
  | argument :: arguments =>
    if escaped then do
      let given ← given.addField level argument
      scan level given none true arguments
    else
      match Word.ofArgument argument, waiting with
      | .plain text, some setting => do
        let given ← given.add setting text
        scan level given none false arguments
      | _, some setting => .error (.misuse (.noValue setting))
      | .plain text, none =>
        match level, text with
        | .top, "update" =>
          scan .update { ahead := given.value? .logFormat } none false arguments
        | .top, "get" => scan .get { ahead := given.value? .logFormat } none false arguments
        | .top, "help" => .error (.ofTopics arguments)
        | _, _ => do
          let given ← given.addField level text
          scan level given none false arguments
      | .escape, none => scan level given none true arguments
      | .short letter, none => .error (.ofLetter level letter)
      | .long name value, none => do
        let (given, waiting) ← given.addLong level name value
        scan level given waiting false arguments

/-! ## Commands -/

/-- Where the task definition comes from. -/
inductive Source where
  /-- It is given on the command line or in a variable. -/
  | given (document : String)
  /-- It is in a file. -/
  | file (path : String)
  /-- It is on the standard input. -/
  | input
deriving DecidableEq, Repr

/-- What is to be done with the task definition. -/
inductive Action where
  /-- Revises the containers. -/
  | update (strings : Strings) (style : Json.Style)
  /-- Shows a field. -/
  | get (field : String)
deriving Repr

/-- How diagnostics are written. -/
inductive LogFormat where
  /-- In lines of text. -/
  | text
  /-- As one object for each event. -/
  | json
deriving DecidableEq, Repr

/-- What the command line asks for. -/
structure Command where
  /-- Where the task definition comes from. -/
  source : Source
  /-- What is to be done with it. -/
  action : Action
  /-- How diagnostics are written. -/
  format : LogFormat
deriving Repr

/-- The value of an option: as given, or else that of its variable. -/
def Given.resolve? (given : Given) (environment : List (String × String)) (setting : Setting) :
    Option String :=
  given.value? setting <|> setting.fallback.bind fun name => environment.lookup name

/-- Where the task definition comes from. -/
def Given.source (given : Given) (environment : List (String × String)) : Except Stop Source :=
  match given.resolve? environment .document, given.value? .file with
  | some _, some _ => .error (.misuse .conflict)
  | some document, none => .ok (.given document)
  | none, some path => .ok (.file path)
  | none, none => .ok .input

/-- The update strings; one that is not given is empty. -/
def Given.strings (given : Given) (environment : List (String × String)) : Strings :=
  Kind.all.foldl
    (fun strings kind => strings.set kind ((given.resolve? environment (.updates kind)).getD "")) {}

/-- The style of the result. -/
def Given.style (given : Given) : Json.Style :=
  if (given.value? .pretty).isSome then .pretty else .compact

/-- How diagnostics are written: as asked for behind the name of the command, or else before it. -/
def Given.format (given : Given) : LogFormat :=
  if (given.value? .logFormat <|> given.ahead) = some "json" then .json else .text

/-- What is to be done with the task definition. -/
def Given.action (given : Given) (environment : List (String × String)) :
    Level → Except Stop Action
  | .top => .error (.misuse .noCommand)
  | .update => .ok (.update (given.strings environment) given.style)
  | .get =>
    match given.field with
    | some field => .ok (.get field)
    | none => .error (.misuse .noField)

/-- The command that the arguments ask for. -/
def Command.ofArguments (arguments : List String) (environment : List (String × String)) :
    Except Stop Command := do
  let (level, given) ← scan .top {} none false arguments
  let action ← given.action environment level
  let source ← given.source environment
  .ok { source, action, format := given.format }

end TaskRevision.CommandLine
