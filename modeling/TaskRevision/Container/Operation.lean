import TaskRevision.Container.Basic
/-!
# Operations on a container

What may be done to a single container, whatever its fields are called.  An operation on a list or
an object makes the field if it is missing or null, and is refused if the field holds anything else.
-/

namespace TaskRevision.Container

open Json (Value)

/-- Something to be done to a container. -/
inductive Operation where
  /-- Sets the image reference. -/
  | setImage (image : String)
  /-- Makes sure that a field holds a list. -/
  | openArray (field : String)
  /-- Puts an item at the end of the list of a field. -/
  | push (field : String) (item : Value)
  /-- Makes sure that a field holds an object. -/
  | openObject (field : String)
  /-- Writes a member of the object of a field. -/
  | insert (field key : String) (value : Value)

/-- The container after the operation was tried, and whether it was done. -/
def attempt (c : Container) : Operation → Container × Bool
  | .setImage image => (c.setImage image, true)
  | .openArray field =>
    let (c, items) := c.openArray field
    (c, items.isSome)
  | .push field item =>
    match c.openArray field with
    | (c, some items) => (c.set field (.array (items ++ [item])), true)
    | (c, none) => (c, false)
  | .openObject field =>
    let (c, members) := c.openObject field
    (c, members.isSome)
  | .insert field key value =>
    match c.openObject field with
    | (c, some members) => (c.set field (.object (Keyed.insert key value members)), true)
    | (c, none) => (c, false)

/-- The container after the operation, unless it is refused. -/
def perform? (c : Container) (operation : Operation) : Option Container :=
  match c.attempt operation with
  | (c, true) => some c
  | (_, false) => none

/-- The container as the operation leaves it, done or refused. -/
def perform (c : Container) (operation : Operation) : Container := (c.attempt operation).1

end TaskRevision.Container
