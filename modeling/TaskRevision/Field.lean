import TaskRevision.Description
import TaskRevision.Text.Blank
/-!
# Fields of a task definition as text

One field of a task definition, written so that a shell can use it.  Most fields are written as they
are, texts without their quotes; a few are lists or objects in any case, and are written as such even
if they are missing.  The tags stand beside the task definition, all other fields in it.
-/

namespace TaskRevision

open Json (Value)

/-! ## Formats -/

/-- How a field is written. -/
inductive Format where
  /-- The items of a list, trimmed, with blanks between them. -/
  | words
  /-- A list, empty if the field is missing. -/
  | array
  /-- An object, empty if the field is missing. -/
  | object
  /-- Any value; a text without its quotes, and nothing if the field is null or missing. -/
  | plain
deriving DecidableEq, Repr

namespace Format

/-- The name of the field that stands beside the task definition. -/
def tagsField : String := "tags"

/-- The format of a field. -/
def ofField (field : String) : Format :=
  if field = "requiresCompatibilities" then .words
  else if ["placementConstraints", "volumes", tagsField].contains field then .array
  else if ["proxyConfiguration", "runtimePlatform"].contains field then .object
  else .plain

/-- What is written for a missing field. -/
def absent : Format → String
  | .words | .plain => ""
  | .array => "[]"
  | .object => "\x7b\x7d"

/-- A value without quotes if it is a text, and nothing if it is null. -/
def plainText : Value → String
  | .string s => s
  | .null => ""
  | v => v.compact

/-- The value in the given format. -/
def render : Format → Value → String
  | .words, .array items => " ".intercalate (items.map fun item => Text.trim (plainText item))
  | .array, v | .object, v => v.compact
  | .words, v | .plain, v => plainText v

/-- The value in the given format, if there is one. -/
def renderOption (format : Format) : Option Value → String
  | some v => format.render v
  | none => format.absent

end Format

/-! ## Extraction -/

/-- A field of the task definition in a document, as text. -/
def extract (document field : String) : Except Failure String :=
  match Json.parse document with
  | .error report => .error (.malformed (.text report))
  | .ok root =>
    match root.get? Description.definitionKey with
    | some (.object members) =>
      let value :=
        if field = Format.tagsField then root.get? field else members.lookup field
      .ok ((Format.ofField field).renderOption value)
    | _ => .error (.malformed .noTaskDefinition)

end TaskRevision
