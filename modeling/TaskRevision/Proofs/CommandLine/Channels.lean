import TaskRevision.CommandLine.Run
import TaskRevision.Proofs.Causes
import TaskRevision.Proofs.CommandLine.Options
import TaskRevision.Proofs.Journal
import TaskRevision.Proofs.Json.Accepted
/-!
# Channels of a run

A run may get its document from an option, from a variable, from a file or from the standard input, and
each update string from an option or from a variable.  Over which of these channels they come makes no
difference: the run ends with the text of the revision or of the field on the standard output, or with
nothing there and the failure on the standard error.  Nothing else is told there, unless a variable asks
for the events of the run or for the calls that lead to a failure.

* `Sets`, `Supplies`, `SuppliesStrings` — the channels over which a run is supplied;
* `Asks` — the command lines that ask for an action on a document;
* `Surroundings.Quiet` — no variable asks for more than the result or the failure;
* `source_of_supplies`, `strings_of_supplies` — what a run finds in its channels;
* `run_of_asks` — **a run ends as what its arguments ask for comes out.**
-/

namespace TaskRevision.CommandLine

open Update (Kind Strings)

/-! ## Channels -/

section

variable (surroundings : Surroundings) (options : List Written)

/-- The value of the variable that stands in for a setting, if it is set. -/
def Surroundings.standIn? (setting : Setting) : Option String :=
  setting.standIn.bind fun name => surroundings.environment.lookup name

/-- The setting has the value from its option, or else from its variable. -/
def Sets (setting : Setting) (value : String) : Prop :=
  valueOf? options setting = some value ∨
    valueOf? options setting = none ∧ surroundings.standIn? setting = some value

/-- The setting has a value neither from its option nor from its variable. -/
def Unset (setting : Setting) : Prop :=
  valueOf? options setting = none ∧ surroundings.standIn? setting = none

/-- The document comes to the run over one of its channels, and over no other. -/
inductive Supplies (document : String) : Prop
  /-- It is given in its option or its variable. -/
  | given : Sets surroundings options .document document → valueOf? options .file = none →
      Supplies document
  /-- It is in the file whose path is given. -/
  | file {path : String} : Unset surroundings options .document →
      valueOf? options .file = some path → surroundings.file path = .ok document.toUTF8 →
      Supplies document
  /-- It is on the standard input. -/
  | input : Unset surroundings options .document → valueOf? options .file = none →
      surroundings.input = .ok document.toUTF8 → Supplies document

/-- The update string of a kind comes in its option or its variable; if it comes in neither it is empty. -/
def SuppliesString (kind : Kind) (raw : String) : Prop :=
  Sets surroundings options (.updates kind) raw ∨
    Unset surroundings options (.updates kind) ∧ raw = ""

/-- All update strings come to the run. -/
structure SuppliesStrings (strings : Strings) : Prop where
  image : SuppliesString surroundings options .image strings.image
  environment : SuppliesString surroundings options .environment strings.environment
  dockerLabels : SuppliesString surroundings options .dockerLabel strings.dockerLabels
  secrets : SuppliesString surroundings options .secret strings.secrets

end

/-! ## Command lines -/

/-- The style that a row of options asks for. -/
def styleOf (options : List Written) : Json.Style :=
  if (valueOf? options .pretty).isSome then .pretty else .compact

/-- The arguments ask for the action, and the document comes to the run.  Options may stand in any order,
those for the format of diagnostics before the name of the command too; a field may stand anywhere among
them if it does not look like an option, and any field may stand behind two hyphens. -/
inductive Asks (surroundings : Surroundings) (document : String) : List String → Action → Prop
  /-- They ask for a revision with the update strings that come to the run. -/
  | update {ahead options : List Written} {strings : Strings} :
      Row .top ahead → Row .update options → Supplies surroundings options document →
      SuppliesStrings surroundings options strings →
      Asks surroundings document (spell ahead ++ "update" :: spell options)
        (.update strings (styleOf options))
  /-- They ask for a field. -/
  | get {ahead before after : List Written} {field : String} :
      Row .top ahead → Row .get (before ++ after) → Supplies surroundings (before ++ after) document →
      IsPlain field →
      Asks surroundings document (spell ahead ++ "get" :: (spell before ++ field :: spell after))
        (.get field)
  /-- They ask for a field behind two hyphens. -/
  | getEscaped {ahead options : List Written} {field : String} :
      Row .top ahead → Row .get options → Supplies surroundings options document →
      Asks surroundings document (spell ahead ++ "get" :: (spell options ++ ["--", field])) (.get field)

/-- No variable asks for more on the standard error than a failure: no filter of events is set, and the
calls that lead to a failure are not asked for. -/
structure Surroundings.Quiet (surroundings : Surroundings) : Prop where
  unfiltered : surroundings.environment.lookup "RUST_LOG" = none
  program : surroundings.environment.lookup "RUST_BACKTRACE" = none
  library : surroundings.environment.lookup "RUST_LIB_BACKTRACE" = none

/-- The run ends with the result and nothing else, or with the failure and nothing else. -/
inductive EndsWith (outcome : Outcome) : Except Failure String → Prop
  /-- The result goes to the standard output, and a line feed behind it. -/
  | ok {result : String} : outcome = { code := 0, output := result ++ "\n", errors := "" } →
      EndsWith outcome (.ok result)
  /-- The failure goes to the standard error. -/
  | error {failure : Failure} :
      outcome = { code := 1, output := "", errors := "Error: " ++ failure.message ++ "\n" } →
      EndsWith outcome (.error failure)

/-! ## What a run finds in its channels -/

section

variable {surroundings : Surroundings} {options : List Written} {given : Given}
  (hgiven : given.settings = options.map Written.entry)
include hgiven

theorem resolve?_eq (setting : Setting) : given.resolve? surroundings.environment setting
    = (valueOf? options setting).or (surroundings.standIn? setting) := by
  rw [Given.resolve?, Given.value?, hgiven, valueOf?, Surroundings.standIn?, setting.standIn_eq]
  cases (options.map Written.entry).lookup setting <;> rfl

theorem resolve?_of_sets {setting : Setting} {value : String}
    (h : Sets surroundings options setting value) :
    given.resolve? surroundings.environment setting = some value := by
  rw [resolve?_eq hgiven]
  rcases h with hoption | ⟨hnone, hvariable⟩
  · rw [hoption, Option.some_or]
  · rw [hnone, hvariable, Option.none_or]

theorem resolve?_of_unset {setting : Setting} (h : Unset surroundings options setting) :
    given.resolve? surroundings.environment setting = none := by
  rw [resolve?_eq hgiven, h.1, h.2, Option.none_or]

/-- The document is what the run fetches from its source. -/
theorem source_of_supplies {document : String} (h : Supplies surroundings options document) :
    ∃ source, given.source surroundings.environment = .ok source ∧
      ∀ (action : Action) (format : LogFormat),
        Command.document ⟨source, action, format⟩ (surroundings.fetch source) = .ok document := by
  have hvalue : given.value? .file = valueOf? options .file := by
    rw [Given.value?, hgiven, valueOf?]
  have hread : (Except.ok document.toUTF8).bind textOfBytes = .ok document :=
    textOfBytes_toUTF8 document
  rw [Given.source, hvalue]
  cases h with
  | given hsets hfile =>
      rw [resolve?_of_sets hgiven hsets, hfile]
      exact ⟨.given document, rfl, fun action format => rfl⟩
  | @file path hunset hfile hfetch =>
      rw [resolve?_of_unset hgiven hunset, hfile]
      refine ⟨.file path, rfl, fun action format => ?_⟩
      simp only [Command.document, Surroundings.fetch, hfetch, hread]
  | input hunset hfile hfetch =>
      rw [resolve?_of_unset hgiven hunset, hfile]
      refine ⟨.input, rfl, fun action format => ?_⟩
      simp only [Command.document, Surroundings.fetch, hfetch, hread]

/-- An update string is what the run finds for its kind. -/
theorem string_of_supplies {kind : Kind} {raw : String}
    (h : SuppliesString surroundings options kind raw) :
    (given.resolve? surroundings.environment (.updates kind)).getD "" = raw := by
  rcases h with hsets | ⟨hunset, hempty⟩
  · rw [resolve?_of_sets hgiven hsets]
    rfl
  · rw [resolve?_of_unset hgiven hunset, hempty]
    rfl

theorem strings_of_supplies {strings : Strings} (h : SuppliesStrings surroundings options strings) :
    given.strings surroundings.environment = strings := by
  have hget : ∀ kind : Kind,
      (given.resolve? surroundings.environment (.updates kind)).getD "" = strings.get kind := by
    intro kind
    cases kind with
    | image => exact string_of_supplies hgiven h.image
    | environment => exact string_of_supplies hgiven h.environment
    | dockerLabel => exact string_of_supplies hgiven h.dockerLabels
    | secret => exact string_of_supplies hgiven h.secrets
  simp only [Given.strings, hget]
  rfl

theorem style_of_settings : given.style = styleOf options := by
  rw [Given.style, Given.value?, hgiven, styleOf, valueOf?]

end

/-! ## Whole runs -/

/-- A run whose arguments can be read is that of a command on the document. -/
theorem run_of_scan {arguments : List String} {surroundings : Surroundings} {level : Level}
    {given : Given} {options : List Written} {document : String} {action : Action}
    (hscan : scan .top {} none false arguments = .ok (level, given))
    (hgiven : given.settings = options.map Written.entry)
    (hsupplies : Supplies surroundings options document)
    (haction : given.action surroundings.environment level = .ok action) :
    ∃ (command : Command) (fetched : Except FileFault ByteArray),
      run arguments surroundings = command.outcome surroundings fetched ∧
      command.action = action ∧ command.document fetched = .ok document := by
  obtain ⟨source, hsource, hdocument⟩ := source_of_supplies hgiven hsupplies
  have hcommand : Command.ofArguments arguments surroundings.environment
      = .ok ⟨source, action, given.format⟩ := by
    simp [Command.ofArguments, hscan, haction, hsource, bind, Except.bind]
  refine ⟨_, surroundings.fetch source, ?_, rfl, hdocument action given.format⟩
  rw [run, hcommand]

theorem run_eq_outcome {arguments : List String} {surroundings : Surroundings} {document : String}
    {action : Action} (h : Asks surroundings document arguments action) :
    ∃ (command : Command) (fetched : Except FileFault ByteArray),
      run arguments surroundings = command.outcome surroundings fetched ∧
      command.action = action ∧ command.document fetched = .ok document := by
  cases h with
  | @update ahead options strings hahead hrow hsupplies hstrings =>
      refine run_of_scan (scan_update hahead hrow) rfl hsupplies ?_
      rw [Given.action, strings_of_supplies rfl hstrings, style_of_settings rfl]
  | get hahead hrow hsupplies hfield =>
      exact run_of_scan (scan_get hahead hrow hfield) rfl hsupplies rfl
  | getEscaped hahead hrow hsupplies =>
      exact run_of_scan (scan_getEscaped hahead hrow _) rfl hsupplies rfl

/-- Nothing that an action does with a document fails with a cause. -/
theorem Action.uncaused_result (action : Action) (document : String) :
    Uncaused (action.result document) := by
  cases action with
  | update strings style => exact uncaused_reviseText document strings style
  | get field => exact uncaused_extract document field

/-- Nothing that a command tells of itself is a warning or an error. -/
theorem Command.minor_events (command : Command) (fetched : Except FileFault ByteArray) :
    Minor (command.events fetched) := by
  refine .append ?_ ?_
  · cases command.source with
    | given document => exact minor_nil
    | file path => exact .cons ⟨nofun, nofun⟩ minor_nil
    | input => exact .cons ⟨nofun, nofun⟩ minor_nil
  · split
    · next document _ =>
      cases command.action with
      | get field => exact minor_extractEvents document field
      | update strings style =>
          refine .append ?_ (minor_reviseEvents document strings)
          split
          · exact .cons ⟨nofun, nofun⟩ minor_nil
          · exact minor_nil
    · exact minor_nil

section

variable {surroundings : Surroundings} (hquiet : surroundings.Quiet)
include hquiet

theorem Surroundings.Quiet.filter_eq : surroundings.filter = "warn" := by
  rw [filter, hquiet.unfiltered]

theorem Surroundings.Quiet.tellsCalls_eq : surroundings.tellsCalls = false := by
  rw [tellsCalls, hquiet.library, hquiet.program]

/-- Where nobody asks for more, a result goes to the standard output, and a failure without a cause to
the standard error. -/
theorem endsWith_report {result : Except Failure String} (h : Uncaused result) :
    EndsWith (surroundings.report result) result := by
  cases result with
  | ok text => exact .ok rfl
  | error failure =>
      have hcause : failure.cause? = none := h failure rfl
      refine .error ?_
      simp [Surroundings.report, failed, hcause, hquiet.tellsCalls_eq]

/-- There a run of a command is its action on the document. -/
theorem endsWith_outcome (hlistener : surroundings.listener.Lawful) {command : Command}
    {fetched : Except FileFault ByteArray} {document : String}
    (h : command.document fetched = .ok document) :
    EndsWith (command.outcome surroundings fetched) (command.action.result document) := by
  have hreport := endsWith_report hquiet (command.action.uncaused_result document)
  have hjournal := hlistener.silent command.format _ (command.minor_events fetched)
  simp only [Command.outcome, h, Except.bind, hquiet.filter_eq, hjournal, String.empty_append]
  exact hreport

theorem endsWith_of_asks (hlistener : surroundings.listener.Lawful) {arguments : List String}
    {document : String} {action : Action} (h : Asks surroundings document arguments action) :
    EndsWith (run arguments surroundings) (action.result document) := by
  obtain ⟨command, fetched, hrun, rfl, hdocument⟩ := run_eq_outcome h
  rw [hrun]
  exact endsWith_outcome hquiet hlistener hdocument

end

/-- The run ends as what its arguments ask for comes out. -/
structure EndsAsAsked (surroundings : Surroundings) (document : String) (arguments : List String) :
    Prop where
  /-- One that is asked for a revision ends with the text of the revised containers. -/
  update : ∀ (strings : Strings) (style : Json.Style),
    Asks surroundings document arguments (.update strings style) →
    EndsWith (run arguments surroundings) (reviseText document strings style)
  /-- One that is asked for a field ends with the text of the field. -/
  get : ∀ field : String, Asks surroundings document arguments (.get field) →
    EndsWith (run arguments surroundings) (extract document field)

/-- **A run ends as what its arguments ask for comes out**, over whatever channels the document and the
update strings come to it. -/
theorem run_of_asks {surroundings : Surroundings} (hquiet : surroundings.Quiet)
    (hlistener : surroundings.listener.Lawful) (document : String) (arguments : List String) :
    EndsAsAsked surroundings document arguments where
  update _ _ h := endsWith_of_asks hquiet hlistener h
  get _ h := endsWith_of_asks hquiet hlistener h

/-- A document with one container. -/
def webDocument : String :=
  "\x7b\"taskDefinition\":\x7b\"containerDefinitions\":[\x7b\"name\":\"web\"\x7d],\"cpu\":1\x7d\x7d"

/-- The document is there in a file and on the standard input, and two variables hold update strings. -/
def webSurroundings : Surroundings where
  environment := [("TASKDEF_IMAGE_UPDATES", "container=db,tag=1"),
    ("TASKDEF_ENV_UPDATES", "container=web,name=A,value=1")]
  input := .ok webDocument.toUTF8
  file path := if path = "td.json" then .ok webDocument.toUTF8 else .error .notFound

theorem quiet_webSurroundings : webSurroundings.Quiet := ⟨rfl, rfl, rfl⟩

/-- A revision of the file, with images in an option that hides their variable and environment variables
in theirs; a revision of the standard input that fails over the hidden variable; and a field of the
file. -/
theorem run_of_asks_mixed_channels :
    let update := ["--log-format", "json", "update", "--image-updates=container=web,image-and-tag=a:2",
      "--task-definition-file", "td.json"]
    let get := ["get", "--task-definition-file=td.json", "cpu"]
    let standing : Strings :=
      { image := "container=db,tag=1", environment := "container=web,name=A,value=1" }
    let strings := { standing with image := "container=web,image-and-tag=a:2" }
    (webSurroundings.Quiet ∧ webSurroundings.listener.Lawful) ∧
      (Asks webSurroundings webDocument update (.update strings .compact) ∧
        EndsWith (run update webSurroundings) (reviseText webDocument strings .compact)) ∧
      (Asks webSurroundings webDocument ["update"] (.update standing .compact) ∧
        EndsWith (run ["update"] webSurroundings) (reviseText webDocument standing .compact)) ∧
      (Asks webSurroundings webDocument get (.get "cpu") ∧
        EndsWith (run get webSurroundings) (extract webDocument "cpu")) ∧
      run update webSurroundings = { code := 0, output := "[\x7b\"name\":\"web\",\"environment\":"
        ++ "[\x7b\"name\":\"A\",\"value\":\"1\"\x7d],\"image\":\"a:2\"\x7d]\n" } ∧
      run ["update"] webSurroundings = { code := 1, errors := "Error: the container db named in the "
        ++ "image name updates is not defined in the existing task definition\n" } ∧
      run get webSurroundings = { code := 0, output := "1\n" } := by
  intro update get standing strings
  have hfile : webSurroundings.file "td.json" = .ok webDocument.toUTF8 := by
    show (if "td.json" = "td.json" then Except.ok webDocument.toUTF8 else .error .notFound) = _
    exact if_pos rfl
  have hupdate : Asks webSurroundings webDocument update (.update strings .compact) := by
    let ahead : List Written := [.apart .logFormat "json"]
    let options : List Written := [.joined (.updates .image) "container=web,image-and-tag=a:2",
      .apart .file "td.json"]
    have hahead : Row .top ahead := by decide
    have hrow : Row .update options := by decide
    have hstrings : SuppliesStrings webSurroundings options strings :=
      ⟨.inl (.inl rfl), .inl (.inr ⟨rfl, rfl⟩), .inr ⟨⟨rfl, rfl⟩, rfl⟩, .inr ⟨⟨rfl, rfl⟩, rfl⟩⟩
    exact .update hahead hrow (.file ⟨rfl, rfl⟩ rfl hfile) hstrings
  have hstanding : Asks webSurroundings webDocument ["update"] (.update standing .compact) := by
    have hrow : Row .update [] := by decide
    have hstrings : SuppliesStrings webSurroundings [] standing :=
      ⟨.inl (.inr ⟨rfl, rfl⟩), .inl (.inr ⟨rfl, rfl⟩), .inr ⟨⟨rfl, rfl⟩, rfl⟩,
        .inr ⟨⟨rfl, rfl⟩, rfl⟩⟩
    have hahead : Row .top [] := by decide
    exact .update hahead hrow (.input ⟨rfl, rfl⟩ rfl rfl) hstrings
  have hget : Asks webSurroundings webDocument get (.get "cpu") := by
    have hahead : Row .top [] := by decide
    have hrow : Row .get ([.joined .file "td.json"] ++ []) := by decide
    have hfield : IsPlain "cpu" := by decide
    exact .get hahead hrow (.file ⟨rfl, rfl⟩ rfl hfile) hfield
  have hends := run_of_asks quiet_webSurroundings Listener.lawful_plain webDocument
  refine ⟨⟨quiet_webSurroundings, Listener.lawful_plain⟩,
    ⟨hupdate, (hends update).update strings .compact hupdate⟩,
    ⟨hstanding, (hends ["update"]).update standing .compact hstanding⟩,
    ⟨hget, (hends get).get "cpu" hget⟩, ?_⟩
  decide +kernel

end TaskRevision.CommandLine
