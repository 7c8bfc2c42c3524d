import TaskRevision.Json.Choice
/-!
# Kinds of updates

A run takes up to four update strings, one per kind.  A kind has a name, by which it is written in
documents, and a title, by which messages speak of it.
-/

namespace TaskRevision.Update

/-- What an update string changes. -/
inductive Kind where
  /-- The image of a container. -/
  | image
  /-- The environment variables of a container. -/
  | environment
  /-- The docker labels of a container. -/
  | dockerLabel
  /-- The secrets of a container. -/
  | secret
deriving DecidableEq, Repr

namespace Kind

/-- The name of a kind in documents. -/
def name : Kind → String
  | .image => "image"
  | .environment => "environment"
  | .dockerLabel => "docker-label"
  | .secret => "secret"

/-- The words for a kind in messages. -/
def title : Kind → String
  | .image => "image name"
  | .environment => "environment variable"
  | .dockerLabel => "docker label"
  | .secret => "secret"

/-- All kinds, in the order in which their names are listed. -/
def all : List Kind := [.image, .environment, .dockerLabel, .secret]

/-- The order in which the update strings of one run are applied. -/
def applyOrder : List Kind := [.environment, .dockerLabel, .secret, .image]

/-- The kind of the given name. -/
def ofName (word : String) : Except Json.Cause Kind := Json.oneOf all name word

/-- The kind that a value names. -/
def ofJson (v : Json.Value) : Except Json.Cause Kind := v.toChoice ofName (· matches .null)

end Kind

end TaskRevision.Update
