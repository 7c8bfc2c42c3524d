import TaskRevision.Update.Grammar
/-!
# Failures

Everything that ends a run.  A failure is kept as what is wrong; the words for it are worked out when
it is shown.
-/

namespace TaskRevision

open Update (Kind Mode Reason)

/-! ## Documents that do not fit -/

/-- What is wrong with a task definition document. -/
inductive Problem where
  /-- The text is no document of the expected form. -/
  | text (report : Json.Report)
  /-- There is no task definition in it. -/
  | noTaskDefinition
  /-- A container has no text as its name. -/
  | unnamed (position : Nat)
  /-- A container's name is empty or no text. -/
  | emptyName (position : Nat)
  /-- Two containers share a name. -/
  | duplicateName (name : String)
  /-- A part of an image is to be replaced where there is no image. -/
  | noImage (container : String) (mode : Mode)
  /-- A field that should hold a list holds something else. -/
  | notArray (container field : String)
  /-- A field that should hold an object holds something else. -/
  | notObject (container field : String)
deriving Repr

/-- The words for a problem. -/
def Problem.message : Problem → String
  | .text report => report.message
  | .noTaskDefinition => "missing `taskDefinition` object"
  | .unnamed position =>
    "container at position " ++ String.ofList (Json.naturalL position) ++ " has no string `name`"
  | .emptyName position =>
    "container at position " ++ String.ofList (Json.naturalL position) ++ " has an empty name"
  | .duplicateName name => "duplicate container name: \"" ++ name ++ "\""
  | .noImage container mode =>
    "container \"" ++ container ++ "\" has no image for a `" ++ mode.name ++ "` update"
  | .notArray container field =>
    "`" ++ field ++ "` of container \"" ++ container ++ "\" is not an array"
  | .notObject container field =>
    "`" ++ field ++ "` of container \"" ++ container ++ "\" is not an object"

/-! ## Files that cannot be read -/

/-- Why a file, or the standard input, cannot be read as a text. -/
inductive FileFault where
  /-- There is no such file. -/
  | notFound
  /-- The path is that of a directory. -/
  | isDirectory
  /-- The bytes are not those of a text. -/
  | notText
  /-- Something else went wrong. -/
  | other (message : String)
deriving DecidableEq, Repr

/-- The words for a fault of a file. -/
def FileFault.message : FileFault → String
  | .notFound => "No such file or directory (os error 2)"
  | .isDirectory => "Is a directory (os error 21)"
  | .notText => "stream did not contain valid UTF-8"
  | .other message => message

/-! ## Failures -/

/-- What ends a run. -/
inductive Failure where
  /-- The document does not fit. -/
  | malformed (problem : Problem)
  /-- An update string is refused. -/
  | refused (kind : Kind) (reason : Reason) (raw : String)
  /-- An update names a container that the document does not have. -/
  | unknownContainer (container : String) (kind : Kind)
  /-- A file cannot be read. -/
  | unreadableFile (path : String) (fault : FileFault)
  /-- The standard input cannot be read. -/
  | unreadableInput (fault : FileFault)
  /-- A text that is not the task definition document is refused. -/
  | notJson (report : Json.Report)
deriving Repr

/-- The words for a failure. -/
def Failure.message : Failure → String
  | .malformed problem => "no valid task definition found: " ++ problem.message
  | .refused kind reason raw =>
    kind.title ++ " update parameter format is incorrect (" ++ reason.message ++ "): " ++ raw
  | .unknownContainer container kind =>
    "the container " ++ container ++ " named in the " ++ kind.title
      ++ " updates is not defined in the existing task definition"
  | .unreadableFile path fault => "failed to read " ++ path ++ ": " ++ fault.message
  | .unreadableInput _ => "failed to read task definition from stdin"
  | .notJson report => "serialization error: " ++ report.message

/-- The fault that is told beside a failure as its cause. -/
def Failure.cause? : Failure → Option FileFault
  | .unreadableFile _ fault => some fault
  | .unreadableInput fault => some fault
  | _ => none

end TaskRevision
