import TaskRevision.CommandLine.Arguments
import TaskRevision.Journal
/-!
# Runs

What a run prints and how it ends, as a function of its surroundings: the variables, the standard
input, the files, and who listens to its events.  The standard output carries nothing but the result and
a line feed; what is written of the events, and then a failure, go to the standard error.

* `Action.result` — the text that an action makes of a document;
* `Command.events` — what a run tells of itself;
* `Listener`, `Listener.Lawful` — who writes such events down, and what is known of them;
* `Command.outcome` — the end of a run, once the document has been fetched;
* `run` — a whole run.

The wording of help and of misuse is free: nothing rests on it.
-/

namespace TaskRevision.CommandLine

/-! ## Outcomes -/

/-- How a run ends. -/
structure Outcome where
  /-- The exit code. -/
  code : Nat
  /-- What stands on the standard output. -/
  output : String := ""
  /-- What stands on the standard error. -/
  errors : String := ""
deriving DecidableEq, Repr

/-- The name and the version of the program. -/
def banner : String := "taskdef 0.1.0"

/-- How the program is used.  The wording is no part of what the program promises. -/
def usage : String :=
  "Usage: taskdef [--log-format text|json] update [OPTIONS]\n"
    ++ "       taskdef [--log-format text|json] get [OPTIONS] <FIELD>\n\nOptions:\n"
    ++ String.join ((Setting.allowed .update).map fun setting =>
      "  --" ++ setting.name ++ (if setting.takesValue then " <VALUE>" else "")
        ++ (setting.fallback.elim "" fun name => " [env: " ++ name ++ "]") ++ "\n")

/-- The end of a run whose arguments ask for no command. -/
def Stop.outcome : Stop → Outcome
  | .help => { code := 0, output := usage }
  | .version => { code := 0, output := banner ++ "\n" }
  | .misuse why => { code := 2, errors := "error: " ++ why.message ++ "\n\n" ++ usage }

/-- The end of a run that fails, with what is told of the calls that led there. -/
def failed (failure : Failure) (calls : String) : Outcome where
  code := 1
  errors := "Error: " ++ failure.message
    ++ (match failure.cause? with
      | some fault => "\n\nCaused by:\n    " ++ fault.message
      | none => "")
    ++ calls ++ "\n"

/-- The end of a run with a result. -/
def succeeded (result : String) : Outcome where
  code := 0
  output := result ++ "\n"

/-! ## Commands -/

/-- The text that the action makes of a document. -/
def Action.result : Action → (document : String) → Except Failure String
  | .update strings style, document => reviseText document strings style
  | .get field, document => extract document field

/-- The text that the bytes stand for. -/
def textOfBytes (bytes : ByteArray) : Except FileFault String :=
  match String.fromUTF8? bytes with
  | some text => .ok text
  | none => .error .notText

/-- A text is what its own bytes stand for. -/
@[simp] theorem textOfBytes_toUTF8 (text : String) : textOfBytes text.toUTF8 = .ok text := by
  have valid : text.toUTF8.IsValidUTF8 := text.isValidUTF8
  unfold textOfBytes String.fromUTF8?
  rw [dif_pos valid]
  rfl

/-- The failure to read from a source. -/
def Source.failure : Source → FileFault → Failure
  | .file path, fault => .unreadableFile path fault
  | _, fault => .unreadableInput fault

/-- The document of the command, once the bytes of its source have been fetched. -/
def Command.document (command : Command) (fetched : Except FileFault ByteArray) :
    Except Failure String :=
  match command.source with
  | .given document => .ok document
  | source =>
    match fetched.bind textOfBytes with
    | .ok document => .ok document
    | .error fault => .error (source.failure fault)

/-! ## Events -/

/-- The events of fetching the bytes of a source. -/
def Source.events : Source → List Event
  | .given _ => []
  | .file path =>
    [{ severity := .info, message := "reading task definition file", details := [("path", .bare path)] }]
  | .input => [{ severity := .info, message := "reading task definition from stdin" }]

/-- The events of what the action does with a document. -/
def Action.events : Action → (document : String) → List Event
  | .update strings _, document =>
    (if strings.isEmpty then
      [{ severity := .info
         message := "no update directives given; container definitions pass through" }]
    else []) ++ reviseEvents document strings
  | .get field, document => extractEvents document field

/-- The events of a run of the command. -/
def Command.events (command : Command) (fetched : Except FileFault ByteArray) : List Event :=
  command.source.events ++ match command.document fetched with
    | .ok document => command.action.events document
    | .error _ => []

/-- Who listens to the events of a run, and knows the calls that lead to a failure. -/
structure Listener where
  /-- Whether the text is a filter of events. -/
  understands : (filter : String) → Bool
  /-- What is written of the events that a filter lets through. -/
  text : LogFormat → (filter : String) → List Event → String
  /-- What is told of the calls that lead to a failure. -/
  calls : Failure → String

namespace Listener

/-- What is known of those who listen: the filter `warn` lets nothing through that is no warning and no
error. -/
structure Lawful (listener : Listener) : Prop where
  /-- Nothing is written of such events. -/
  silent : ∀ (format : LogFormat) (events : List Event),
    (∀ event ∈ events, event.severity ≠ .error ∧ event.severity ≠ .warning) →
    listener.text format "warn" events = ""

/-- The severities that a filter lets through, if it is the name of the least of them. -/
def severities? : (filter : String) → Option (List Severity)
  | "error" => some [.error]
  | "warn" => some [.error, .warning]
  | "info" => some [.error, .warning, .info]
  | "debug" => some [.error, .warning, .info, .debug]
  | "trace" => some [.error, .warning, .info, .debug, .trace]
  | _ => none

/-- A listener that writes the message of each event on a line. -/
def plain : Listener where
  understands filter := (severities? filter).isSome
  text _ filter events :=
    String.join ((events.filter fun event => ((severities? filter).getD []).contains event.severity).map
      fun event => event.message ++ "\n")
  calls _ := ""

theorem lawful_plain : plain.Lawful where
  silent format events h := by
    have hnone : (events.filter fun event =>
        ((severities? "warn").getD []).contains event.severity) = [] := by
      rw [List.filter_eq_nil_iff]
      intro event hevent
      obtain ⟨herror, hwarning⟩ := h event hevent
      simp [severities?, herror, hwarning]
    simp only [plain, hnone, List.map_nil]
    rfl

end Listener

/-! ## Runs -/

/-- What a run can see, and who listens to it. -/
structure Surroundings where
  /-- The environment variables. -/
  environment : List (String × String) := []
  /-- The standard input. -/
  input : Except FileFault ByteArray := .ok .empty
  /-- The bytes of the file at a path. -/
  file : String → Except FileFault ByteArray := fun _ => .error .notFound
  /-- Who listens. -/
  listener : Listener := .plain

namespace Surroundings

/-- The bytes of a source; there are none for a document that is given. -/
def fetch (surroundings : Surroundings) : Source → Except FileFault ByteArray
  | .given _ => .ok .empty
  | .file path => surroundings.file path
  | .input => surroundings.input

/-- The filter of events: that of the variable if it is one, and otherwise one for warnings. -/
def filter (surroundings : Surroundings) : String :=
  match surroundings.environment.lookup "RUST_LOG" with
  | some filter => if surroundings.listener.understands filter then filter else "warn"
  | none => "warn"

/-- Whether the calls that lead to a failure are told.  The variable for libraries goes first. -/
def tellsCalls (surroundings : Surroundings) : Bool :=
  match surroundings.environment.lookup "RUST_LIB_BACKTRACE" with
  | some value => value != "0"
  | none =>
    match surroundings.environment.lookup "RUST_BACKTRACE" with
    | some value => value != "0"
    | none => false

/-- The end of a run with a result or a failure. -/
def report (surroundings : Surroundings) : Except Failure String → Outcome
  | .ok result => succeeded result
  | .error failure =>
    failed failure (if surroundings.tellsCalls then "\n\n" ++ surroundings.listener.calls failure else "")

end Surroundings

/-- The end of a run of the command, once the bytes of its source have been fetched.  What is written of
the events goes before the report of a failure. -/
def Command.outcome (command : Command) (surroundings : Surroundings)
    (fetched : Except FileFault ByteArray) : Outcome :=
  let outcome := surroundings.report ((command.document fetched).bind command.action.result)
  let journal :=
    surroundings.listener.text command.format surroundings.filter (command.events fetched)
  { outcome with errors := journal ++ outcome.errors }

/-- The end of a run with the given arguments. -/
def run (arguments : List String) (surroundings : Surroundings) : Outcome :=
  match Command.ofArguments arguments surroundings.environment with
  | .error stop => stop.outcome
  | .ok command => command.outcome surroundings (surroundings.fetch command.source)

end TaskRevision.CommandLine
