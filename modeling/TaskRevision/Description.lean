import TaskRevision.Container.Basic
import TaskRevision.Failure
/-!
# Descriptions of task definitions

The document that a run starts from: an object with the task definition, which is an object with the
containers.  What else stands in the two objects is kept as it is, in order.

* `Description.parse` — reads a document, and checks that every container has a name;
* `Description.toJson` — the document of a description, the known member first at each level.
-/

namespace TaskRevision

open Json (Value Members Reader)

/-- A task definition. -/
structure Definition where
  /-- The containers. -/
  containers : List Container
  /-- All other members. -/
  others : Members

/-- A task definition and what is said beside it. -/
structure Description where
  /-- The task definition. -/
  definition : Definition
  /-- All other members. -/
  others : Members

/-! ## Objects with one known member -/

/-- What has been read of an object with one known member: that member, and the others. -/
abbrev Partial (α : Type) := Option α × Members

/-- Reads what follows the key of a member.  The known member may stand only once; of another the last
value counts. -/
def memberAround {α : Type} (key : String) (rounds levels : Nat) (item : Reader α)
    (state : Partial α) (found : String) : Reader (Partial α) := fun s =>
  if found = key then do
    let (x, s) ← Json.known state.1 key item s
    .ok ((some x, state.2), s)
  else do
    let (others, s) ← Json.keep (Json.value rounds levels) state.2 found s
    .ok ((state.1, others), s)

/-- Reads an object that has to have a member under `key`, and keeps all others. -/
def readAround {α : Type} (expected key : String) (rounds levels : Nat) (item : Reader α) :
    Reader (α × Members) := fun s => do
  let ((known, others), s) ←
    Json.table expected rounds (none, []) (memberAround key rounds levels item) s
  match known with
  | some x => .ok ((x, others), s)
  | none => .error { cause := .missing key, rest := s }

/-! ## Definitions -/

namespace Definition

/-- The member with the containers. -/
def containersKey : String := "containerDefinitions"

/-- Reads a task definition that stands in the object of a document. -/
def reader (rounds : Nat) : Reader Definition := fun s => do
  let item := Json.list rounds (Container.reader rounds (Json.maxNesting - 4))
  let ((containers, others), s) ←
    readAround "struct TaskDefinition" containersKey rounds (Json.maxNesting - 2) item s
  .ok (⟨containers, others⟩, s)

/-- The task definition as a value, the containers first. -/
def toJson (definition : Definition) : Value :=
  .object ((containersKey, Container.listToJson definition.containers) :: definition.others)

end Definition

/-! ## Descriptions -/

namespace Description

/-- The member with the task definition. -/
def definitionKey : String := "taskDefinition"

/-- The containers of the task definition. -/
def containers (description : Description) : List Container := description.definition.containers

/-- Reads a description. -/
def reader (rounds : Nat) : Reader Description := fun s => do
  let ((definition, others), s) ←
    readAround "struct TaskDescriptor" definitionKey rounds (Json.maxNesting - 1)
      (Definition.reader rounds) s
  .ok (⟨definition, others⟩, s)

/-- The description that a document holds; every container in it has a text as its name. -/
def parse (document : String) : Except Failure Description :=
  match Json.decode reader document with
  | .error report => .error (.malformed (.text report))
  | .ok description =>
    match description.containers.findIdx? (·.name?.isNone) with
    | some position => .error (.malformed (.unnamed position))
    | none => .ok description

/-- The description as a value, the task definition first. -/
def toJson (description : Description) : Value :=
  .object ((definitionKey, description.definition.toJson) :: description.others)

end Description

end TaskRevision
