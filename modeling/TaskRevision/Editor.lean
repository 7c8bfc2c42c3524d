import TaskRevision.Container.Index
import TaskRevision.ImageReference
/-!
# Editing containers

An editor holds a list of containers and the index of it.  A record changes one container and the
entry of that container.  Lists grow only at their end, so the positions in the index stay right;
image edits always start from the image that the container had at first, which the index keeps.

* `put` — writes a named entry of a list;
* `Record.revise` — what a record does to a container and its entry;
* `Editor.attempt` — one record, with the editor as it is left even if the record fails;
* `Editor.apply`, `Editor.applyAll` — one record, and a row of records up to the first that fails.
-/

namespace TaskRevision

open Json (Value)
open Update (Mode Record)

/-! ## Named entries -/

/-- The items with a text under `key` in the object at `position`, if an object stands there. -/
def overwrite? (items : List Value) (key value : String) (position : Nat) :
    Option (List Value) :=
  match items[position]? with
  | some (.object members) =>
    some (items.set position (.object (Keyed.insert key (.string value) members)))
  | _ => none

/-- A new entry of a list of named entries. -/
def namedEntry (name key value : String) : Value :=
  .object [(Container.nameKey, .string name), (key, .string value)]

/-- Writes an entry of a list: in its place if the index knows it, or behind the others.  Hands back
the list and the container's entry in the index. -/
def put (listing : Container.Listing) (name value : String) (items : List Value) (entry : Entry) :
    List Value × Entry :=
  match ((entry.positions listing).lookup name).bind
      (overwrite? items listing.valueKey value) with
  | some items => (items, entry)
  | none =>
    (items ++ [namedEntry name listing.valueKey value], entry.record listing name items.length)

/-! ## What a record does -/

/-- The image reference that an image record makes of the container's first one. -/
def Update.Mode.revise (mode : Mode) (container value : String) (image : Option String) :
    Except Failure String :=
  match mode, image with
  | .imageAndTag, _ => .ok value
  | .image, some image => .ok ((ImageReference.parse image).withRepository value)
  | .tag, some image => .ok ((ImageReference.parse image).withTag value)
  | mode, none => .error (.malformed (.noImage container mode))

/-- Writes an entry of a list of the container.  Hands back the container and its entry as the attempt
leaves them, and whether the field could be edited. -/
def Container.revise (c : Container) (entry : Entry) (listing : Listing)
    (container name value : String) : (Container × Entry) × Except Failure Unit :=
  match c.openArray listing.field with
  | (c, none) => ((c, entry), .error (.malformed (.notArray container listing.field)))
  | (c, some items) =>
    let (items, entry) := put listing name value items entry
    ((c.set listing.field (.array items), entry), .ok ())

/-- Writes a docker label of the container. -/
def Container.reviseLabel (c : Container) (entry : Entry) (container key value : String) :
    (Container × Entry) × Except Failure Unit :=
  match c.openObject labelsField with
  | (c, none) => ((c, entry), .error (.malformed (.notObject container labelsField)))
  | (c, some labels) =>
    let entry := match entry.dockerLabels.lookup key with
      | some _ => entry
      | none => entry.recordLabel key labels.length
    ((c.set labelsField (.object (Keyed.insert key (.string value) labels)), entry), .ok ())

/-- Writes the image of the container. -/
def Container.reviseImage (c : Container) (entry : Entry) (container : String) (mode : Mode)
    (value : String) : (Container × Entry) × Except Failure Unit :=
  match mode.revise container value entry.image with
  | .error failure => ((c, entry), .error failure)
  | .ok image => ((c.setImage image, entry), .ok ())

/-- What a record makes of the container that it names, and of the entry of that container. -/
def Update.Record.revise (record : Record) (c : Container) (entry : Entry) :
    (Container × Entry) × Except Failure Unit :=
  match record with
  | .image container mode value => c.reviseImage entry container mode value
  | .environment container name value => c.revise entry .environment container name value
  | .label container key value => c.reviseLabel entry container key value
  | .secret container name source => c.revise entry .secrets container name source

/-! ## The editor -/

/-- A list of containers and its index. -/
structure Editor where
  /-- The containers. -/
  containers : List Container
  /-- The index of the containers, with the images that they had at first. -/
  index : Index

namespace Editor

/-- An editor of the containers. -/
def ofContainers (containers : List Container) : Except Failure Editor := do
  let index ← Index.build containers
  .ok ⟨containers, index⟩

/-- The editor as the attempt to apply a record leaves it, and whether the record was applied. -/
def attempt (editor : Editor) (record : Record) : Editor × Except Failure Unit :=
  match editor.index.resolve record.container record.kind with
  | .error failure => (editor, .error failure)
  | .ok entry =>
    match editor.containers[entry.position]? with
    -- Never taken: a position in the index is that of a container, in every editor that edits can lead
    -- to (`Editor.Exact.container`), so that no edit looks beyond the list.
    | none => (editor, .error (.unknownContainer record.container record.kind))
    | some c =>
      let ((c, revised), outcome) := record.revise c entry
      (⟨editor.containers.set entry.position c, editor.index.set record.container revised⟩, outcome)

/-- The editor after a record has been applied. -/
def apply (editor : Editor) (record : Record) : Except Failure Editor :=
  match editor.attempt record with
  | (editor, .ok ()) => .ok editor
  | (_, .error failure) => .error failure

/-- The editor after the records up to the first that fails, and their number or that failure. -/
def applyAll (editor : Editor) : List Record → Editor × Except Failure Nat
  | [] => (editor, .ok 0)
  | record :: records =>
    match editor.attempt record with
    | (editor, .error failure) => (editor, .error failure)
    | (editor, .ok ()) =>
      let (editor, applied) := editor.applyAll records
      (editor, applied.map (· + 1))

end Editor

end TaskRevision
