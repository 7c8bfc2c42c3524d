import TaskRevision.Description
import TaskRevision.Editor
import TaskRevision.Update.Strings
/-!
# Revisions

A revision takes a document and the update strings of one run to the containers that result.  The
strings are taken in apply order; each is read in full before any of its records is applied, and the
first failure ends the revision.

* `Update.records`, `Update.Strings.records` — the records of one update string, and of all;
* `Editor.applyStrings` — applies update strings one after the other;
* `revise`, `reviseText` — a whole revision, as containers and as text.
-/

namespace TaskRevision

open Json (Style)
open Update (Kind Record Strings)

/-! ## Records -/

/-- The records of an update string. -/
def Update.records (kind : Kind) (raw : String) : Except Failure (List Record) :=
  match read kind raw with
  | .ok records => .ok records
  | .error reason => .error (.refused kind reason raw)

/-- The records of several update strings, in order. -/
def Update.allRecords : List (Kind × String) → Except Failure (List Record)
  | [] => .ok []
  | (kind, raw) :: strings => do
    let first ← records kind raw
    let others ← allRecords strings
    .ok (first ++ others)

/-- The records of all update strings of a run, in apply order. -/
def Update.Strings.records (strings : Strings) : Except Failure (List Record) :=
  allRecords strings.inApplyOrder

/-! ## Revisions -/

/-- The editor after all records of the update strings have been applied. -/
def Editor.applyStrings (editor : Editor) : List (Kind × String) → Except Failure Editor
  | [] => .ok editor
  | (kind, raw) :: strings => do
    let records ← Update.records kind raw
    match editor.applyAll records with
    | (editor, .ok _) => editor.applyStrings strings
    | (_, .error failure) => .error failure

/-- The containers of the document after the updates. -/
def revise (document : String) (strings : Strings) : Except Failure (List Container) := do
  let description ← Description.parse document
  let editor ← Editor.ofContainers description.containers
  let editor ← editor.applyStrings strings.inApplyOrder
  .ok editor.containers

/-- The containers of the document after the updates, as text. -/
def reviseText (document : String) (strings : Strings) (style : Style) :
    Except Failure String := do
  let containers ← revise document strings
  .ok ((Container.listToJson containers).write style)

end TaskRevision
