import TaskRevision.Container.Basic
import TaskRevision.Failure
/-!
# An index of containers

Where everything stands that edits look for by name: containers in their list, environment variables
and secrets in the lists of a container, docker labels in its object.  Of two list entries with the
same name the index knows the last.  The image in the index is the one that the container had when
the index was built.

* `Index.build` — the index of a list of containers that all have different, non-empty names;
* `Index.resolve` — the entry of a container.
-/

namespace TaskRevision

open Update (Kind)

/-- Positions by name. -/
abbrev Positions := List (String × Nat)

/-- The position of each name; where a name stands twice, that of the last. -/
def Positions.ofNames (names : List (Nat × String)) : Positions :=
  names.foldl (fun positions entry => Keyed.insert entry.2 entry.1 positions) []

/-! ## Entries -/

/-- What the index knows of a container. -/
structure Entry where
  /-- The position of the container in its list. -/
  position : Nat
  /-- The image reference before any edit, if it is a text. -/
  image : Option String
  /-- The positions of the environment variables. -/
  environment : Positions
  /-- The positions of the docker labels. -/
  dockerLabels : Positions
  /-- The positions of the secrets. -/
  secrets : Positions
deriving DecidableEq, Repr

namespace Entry

/-- The entry of a container at a position. -/
def ofContainer (position : Nat) (c : Container) : Entry where
  position := position
  image := c.image?
  environment := .ofNames (c.namedEntries Container.Listing.environment.field)
  dockerLabels := .ofNames c.labelKeys
  secrets := .ofNames (c.namedEntries Container.Listing.secrets.field)

/-- The positions in a list. -/
def positions (entry : Entry) : Container.Listing → Positions
  | .environment => entry.environment
  | .secrets => entry.secrets

/-- The entry with a name of a list at a position. -/
def record (entry : Entry) (listing : Container.Listing) (name : String) (position : Nat) :
    Entry :=
  match listing with
  | .environment => { entry with environment := Keyed.insert name position entry.environment }
  | .secrets => { entry with secrets := Keyed.insert name position entry.secrets }

/-- The entry with a docker label at a position. -/
def recordLabel (entry : Entry) (key : String) (position : Nat) : Entry :=
  { entry with dockerLabels := Keyed.insert key position entry.dockerLabels }

end Entry

/-! ## The index -/

/-- The entries of containers by name. -/
structure Index where
  /-- The entries, in the order of the containers. -/
  entries : List (String × Entry)
deriving DecidableEq, Repr

namespace Index

/-- The number of containers. -/
def size (index : Index) : Nat := index.entries.length

/-- Whether there are no containers. -/
def isEmpty (index : Index) : Bool := index.entries.isEmpty

/-- The entry of a container, if there is a container of that name. -/
def get? (index : Index) (name : String) : Option Entry := index.entries.lookup name

/-- Whether there is a container of that name. -/
def contains (index : Index) (name : String) : Bool := (index.get? name).isSome

/-- The index with an entry for a container. -/
def set (index : Index) (name : String) (entry : Entry) : Index :=
  ⟨Keyed.insert name entry index.entries⟩

@[simp] theorem get?_set_self (index : Index) (name : String) (entry : Entry) :
    (index.set name entry).get? name = some entry := by
  simp [get?, set]

theorem get?_set_of_ne (index : Index) {name other : String} (entry : Entry)
    (h : other ≠ name) : (index.set name entry).get? other = index.get? other := by
  simp [get?, set, Keyed.lookup_insert_of_ne entry index.entries h]

theorem set_of_get? {index : Index} {name : String} {entry : Entry}
    (h : index.get? name = some entry) : index.set name entry = index := by
  rw [set, Keyed.insert_of_lookup h]

/-- The index with the entries of further containers, of which the first is at `position`. -/
def addFrom (position : Nat) (index : Index) : List Container → Except Failure Index
  | [] => .ok index
  | c :: containers =>
    match c.name? with
    | none => .error (.malformed (.emptyName position))
    | some name =>
      if name = "" then .error (.malformed (.emptyName position))
      else if index.contains name then .error (.malformed (.duplicateName name))
      else addFrom (position + 1) (index.set name (.ofContainer position c)) containers

/-- The index of a list of containers. -/
def build (containers : List Container) : Except Failure Index := addFrom 0 ⟨[]⟩ containers

/-- The entry of the container that an update of the given kind names. -/
def resolve (index : Index) (name : String) (kind : Kind) : Except Failure Entry :=
  match index.get? name with
  | some entry => .ok entry
  | none => .error (.unknownContainer name kind)

end Index

end TaskRevision
