import TaskRevision.Update.Kind
/-!
# Edit records

One record is one change to one container.  Records are what an update string says, in order.
-/

namespace TaskRevision.Update

/-! ## How an image changes -/

/-- Which part of an image reference an edit replaces. -/
inductive Mode where
  /-- The whole reference. -/
  | imageAndTag
  /-- The repository; the tag stays. -/
  | image
  /-- The tag; the repository stays. -/
  | tag
deriving DecidableEq, Repr

namespace Mode

/-- The name of a mode in update strings and documents. -/
def name : Mode → String
  | .imageAndTag => "image-and-tag"
  | .image => "image"
  | .tag => "tag"

/-- All modes. -/
def all : List Mode := [.imageAndTag, .image, .tag]

/-- The mode of the given name. -/
def ofName? (word : String) : Option Mode := all.find? (·.name = word)

/-- The words for a text that is no mode's name. -/
def complaint (word : String) : String :=
  "expected `" ++ imageAndTag.name ++ "`, `" ++ image.name ++ "`, or `" ++ tag.name
    ++ "`, got `" ++ word ++ "`"

@[simp] theorem ofName?_name (mode : Mode) : ofName? mode.name = some mode := by
  cases mode <;> decide

end Mode

/-! ## Records -/

/-- One change to one container. -/
inductive Record where
  /-- Changes the image. -/
  | image (container : String) (mode : Mode) (value : String)
  /-- Sets an environment variable. -/
  | environment (container name value : String)
  /-- Sets a docker label. -/
  | label (container key value : String)
  /-- Sets where a secret comes from. -/
  | secret (container name source : String)
deriving DecidableEq, Repr

namespace Record

/-- The name of the container that a record changes. -/
def container : Record → String
  | .image container _ _ => container
  | .environment container _ _ => container
  | .label container _ _ => container
  | .secret container _ _ => container

/-- The kind of update string that a record comes from. -/
def kind : Record → Kind
  | .image .. => .image
  | .environment .. => .environment
  | .label .. => .dockerLabel
  | .secret .. => .secret

end Record

end TaskRevision.Update
