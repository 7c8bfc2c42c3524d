import TaskRevision.Field
import TaskRevision.Revision
/-!
# The journal of a run

While it works a run tells what it is at, as a row of events.  Which of them are written anywhere, and
how, is for those to decide who listen.  The events of a run that fails end where it fails.

* `Event` — one event, with its severity and its details;
* `Editor.attemptEvents`, `Editor.applyAllEvents`, `Editor.applyStringsEvents` — the events of edits;
* `reviseEvents`, `extractEvents` — the events of a revision, and of the extraction of a field.
-/

namespace TaskRevision

open Update (Kind Record Strings)

/-! ## Events -/

/-- How much an event matters, the most severe first. -/
inductive Severity where
  | error
  | warning
  | info
  | debug
  | trace
deriving DecidableEq, Repr

/-- A detail of an event. -/
inductive Detail where
  /-- A text, which is set apart by quotes. -/
  | quoted (text : String)
  /-- A text that is written as it stands. -/
  | bare (text : String)
  /-- A number. -/
  | count (n : Nat)
deriving DecidableEq, Repr

/-- Something that a run tells of itself. -/
structure Event where
  severity : Severity
  message : String
  details : List (String × Detail) := []
deriving DecidableEq, Repr

/-! ## Edits -/

/-- The image that a record writes, if it can be written. -/
def Editor.imageOf? (editor : Editor) : Record → Option String
  | .image container mode value =>
    match editor.index.resolve container .image with
    | .ok entry => (mode.revise container value entry.image).toOption
    | .error _ => none
  | _ => none

/-- The events of the attempt to apply a record. -/
def Editor.attemptEvents (editor : Editor) (record : Record) : List Event :=
  { severity := .debug, message := "applying edit"
    details := [("kind", .bare record.kind.title), ("container", .quoted record.container)] }
    :: match editor.imageOf? record with
      | some image =>
        [{ severity := .debug, message := "updated image"
           details := [("container", .bare record.container), ("image", .bare image)] }]
      | none => []

/-- The events of records that are applied up to the first that fails. -/
def Editor.applyAllEvents (editor : Editor) : List Record → List Event
  | [] => []
  | record :: records =>
    editor.attemptEvents record ++ match editor.attempt record with
      | (editor, .ok ()) => editor.applyAllEvents records
      | (_, .error _) => []

/-- The events of update strings that are applied one after the other. -/
def Editor.applyStringsEvents (editor : Editor) : List (Kind × String) → List Event
  | [] => []
  | (kind, raw) :: strings =>
    { severity := .debug, message := "parsing update string"
      details := [("kind", .bare kind.title), ("directive", .quoted raw)] }
      :: match Update.records kind raw with
        | .error _ => []
        | .ok records =>
          editor.applyAllEvents records ++ match editor.applyAll records with
            | (_, .error _) => []
            | (editor, .ok applied) =>
              { severity := .info, message := "applied update string"
                details := [("kind", .bare kind.title), ("applied", .count applied)] }
                :: editor.applyStringsEvents strings

/-! ## Revisions and extractions -/

/-- The events of a revision. -/
def reviseEvents (document : String) (strings : Strings) : List Event :=
  { severity := .info, message := "updating container definitions" }
    :: match Description.parse document with
      | .error _ => []
      | .ok description =>
        match Editor.ofContainers description.containers with
        | .error _ => []
        | .ok editor =>
          { severity := .debug, message := "indexed container definitions"
            details := [("containers", .count editor.index.size)] }
            :: editor.applyStringsEvents strings.inApplyOrder

/-- The word for a format. -/
def Format.word : Format → String
  | .words => "StringList"
  | .array => "JsonArray"
  | .object => "JsonObject"
  | .plain => "Scalar"

/-- The events of the extraction of a field. -/
def extractEvents (document field : String) : List Event :=
  match Json.parse document with
  | .error _ => []
  | .ok root =>
    match root.get? Description.definitionKey with
    | some (.object _) =>
      [{ severity := .debug, message := "extracting task definition field"
         details := [("field", .quoted field), ("format", .bare (Format.ofField field).word)] }]
    | _ => []

end TaskRevision
