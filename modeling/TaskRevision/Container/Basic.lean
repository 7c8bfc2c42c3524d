import TaskRevision.Json.Expect
import TaskRevision.Json.Writer
/-!
# Containers

A container is an object of a task definition, kept as it stands: all its fields, their order and
their values.  Edits write one field, in its old place or behind the others, and never take one away.

Two kinds of fields hold things that edits look for: lists of objects that carry a name, and the
object of docker labels.  A field that is missing or null counts as an empty one of either kind.

* `name?`, `image?`, `get?` — what a container says of itself;
* `namedEntries`, `labelKeys` — what an edit may find, with positions;
* `array?`, `object?` — what an edit of a field starts from, or that the field cannot be edited;
* `openArray`, `openObject` — a field made ready for an edit, its value looked at only afterwards.
-/

namespace TaskRevision

open Json (Value Members Reader)

/-- A container of a task definition. -/
structure Container where
  /-- The fields in order. -/
  fields : Members
deriving Inhabited

namespace Container

/-! ## Names of fields -/

/-- The field with the name of a container, and the key of names in lists. -/
def nameKey : String := "name"

/-- The field with the image reference. -/
def imageField : String := "image"

/-- The field with the docker labels. -/
def labelsField : String := "dockerLabels"

/-- A list of named entries that edits may change. -/
inductive Listing where
  /-- The environment variables. -/
  | environment
  /-- The secrets. -/
  | secrets
deriving DecidableEq, Repr

/-- The field that holds the list. -/
def Listing.field : Listing → String
  | .environment => "environment"
  | .secrets => "secrets"

/-- The key under which an entry of the list holds what edits set. -/
def Listing.valueKey : Listing → String
  | .environment => "value"
  | .secrets => "valueFrom"

/-! ## Reading fields -/

/-- A container with a name and an image. -/
def ofNameAndImage (name image : String) : Container :=
  ⟨[(nameKey, .string name), (imageField, .string image)]⟩

/-- The value of a field. -/
def get? (c : Container) (field : String) : Option Value := c.fields.lookup field

/-- The name, if it is a text. -/
def name? (c : Container) : Option String := (c.get? nameKey).bind Value.string?

/-- The image reference, if it is a text. -/
def image? (c : Container) : Option String := (c.get? imageField).bind Value.string?

/-- The container as a document. -/
def toJson (c : Container) : Value := .object c.fields

/-- The text under `name`, if the value is an object that has one there. -/
def nameOf? (v : Value) : Option String := (v.get? nameKey).bind Value.string?

/-- The names in a list, each with its position; items without a name keep their place. -/
def namesOf (items : List Value) : List (Nat × String) :=
  items.zipIdx.filterMap fun item => (nameOf? item.1).map fun name => (item.2, name)

/-- The names in the list of a field, each with its position. -/
def namedEntries (c : Container) (field : String) : List (Nat × String) :=
  match (c.get? field).bind Value.array? with
  | some items => namesOf items
  | none => []

/-- The keys of an object, each with its position. -/
def keysOf (members : Members) : List (Nat × String) :=
  members.zipIdx.map fun member => (member.2, member.1.1)

/-- The keys of the docker labels, each with its position. -/
def labelKeys (c : Container) : List (Nat × String) :=
  match (c.get? labelsField).bind Value.object? with
  | some labels => keysOf labels
  | none => []

/-! ## Writing fields -/

/-- The container with another value in a field. -/
def set (c : Container) (field : String) (v : Value) : Container :=
  ⟨Keyed.insert field v c.fields⟩

/-- The container with another image reference. -/
def setImage (c : Container) (image : String) : Container := c.set imageField (.string image)

/-- The items that an edit of a list starts from: none if the field is missing or null.  A field
that holds anything else than a list cannot be edited so. -/
def array? (c : Container) (field : String) : Option (List Value) :=
  match c.get? field with
  | none | some .null => some []
  | some v => v.array?

/-- The members that an edit of an object starts from: none if the field is missing or null.  A
field that holds anything else than an object cannot be edited so. -/
def object? (c : Container) (field : String) : Option Members :=
  match c.get? field with
  | none | some .null => some []
  | some v => v.object?

/-- The container with a field made ready to hold a collection, and what stands in the field then.  A
missing field is first put in as null, and null gives way to `empty`; any other value stays. -/
def slot (c : Container) (field : String) (empty : Value) : Container × Value :=
  let c := match c.get? field with
    | some _ => c
    | none => c.set field .null
  match c.get? field with
  | none | some .null => (c.set field empty, empty)
  | some v => (c, v)

/-- The container with a field made ready for an edit of its list, and the list, if it is one. -/
def openArray (c : Container) (field : String) : Container × Option (List Value) :=
  let (c, v) := c.slot field (.array [])
  (c, v.array?)

/-- The container with a field made ready for an edit of its object, and the members, if it is one. -/
def openObject (c : Container) (field : String) : Container × Option Members :=
  let (c, v) := c.slot field (.object [])
  (c, v.object?)

@[simp] theorem get?_set_self (c : Container) (field : String) (v : Value) :
    (c.set field v).get? field = some v := by
  simp [set, get?]

theorem get?_set_of_ne (c : Container) {field other : String} (v : Value) (h : other ≠ field) :
    (c.set field v).get? other = c.get? other := by
  simp [set, get?, Keyed.lookup_insert_of_ne v c.fields h]

@[simp] theorem set_set (c : Container) (field : String) (first second : Value) :
    (c.set field first).set field second = c.set field second := by
  simp [set]

theorem set_of_get? {c : Container} {field : String} {v : Value} (h : c.get? field = some v) :
    c.set field v = c := by
  rw [set, Keyed.insert_of_lookup h]

/-! ### Fields made ready -/

/-- A field that is missing or null is filled, and leaves no trace of the null put in before. -/
theorem slot_of_absent {c : Container} {field : String} (empty : Value)
    (h : c.get? field = none ∨ c.get? field = some .null) :
    c.slot field empty = (c.set field empty, empty) := by
  rcases h with h | h
  · simp [slot, h]
  · simp [slot, h]

/-- A field that holds anything stays as it is. -/
theorem slot_of_present {c : Container} {field : String} {v : Value} (empty : Value)
    (h : c.get? field = some v) (hv : v ≠ .null) : c.slot field empty = (c, v) := by
  cases v <;> simp_all [slot]

/-- A field that can be edited as a list opens as that list. -/
theorem openArray_of_array? {c : Container} {field : String} {items : List Value}
    (h : c.array? field = some items) :
    c.openArray field = (c.set field (.array items), some items) := by
  unfold array? at h
  split at h
  · next hnone =>
    cases h
    rw [openArray, slot_of_absent _ (.inl hnone)]
    rfl
  · next hnull =>
    cases h
    rw [openArray, slot_of_absent _ (.inr hnull)]
    rfl
  · next v hv hget =>
    rw [openArray, slot_of_present _ hget hv]
    cases v <;> simp [Value.array?] at h
    subst h
    rw [set_of_get? hget]
    rfl

/-- A field that cannot be edited as a list is refused, and the container has not changed. -/
theorem openArray_of_not_array? {c : Container} {field : String} (h : c.array? field = none) :
    c.openArray field = (c, none) := by
  unfold array? at h
  split at h
  · cases h
  · cases h
  · next v hv hget => simp only [openArray, slot_of_present _ hget hv, h]

/-- A field that can be edited as an object opens as that object. -/
theorem openObject_of_object? {c : Container} {field : String} {members : Members}
    (h : c.object? field = some members) :
    c.openObject field = (c.set field (.object members), some members) := by
  unfold object? at h
  split at h
  · next hnone =>
    cases h
    rw [openObject, slot_of_absent _ (.inl hnone)]
    rfl
  · next hnull =>
    cases h
    rw [openObject, slot_of_absent _ (.inr hnull)]
    rfl
  · next v hv hget =>
    rw [openObject, slot_of_present _ hget hv]
    cases v <;> simp [Value.object?] at h
    subst h
    rw [set_of_get? hget]
    rfl

/-- A field that cannot be edited as an object is refused, and the container has not changed. -/
theorem openObject_of_not_object? {c : Container} {field : String} (h : c.object? field = none) :
    c.openObject field = (c, none) := by
  unfold object? at h
  split at h
  · cases h
  · cases h
  · next v hv hget => simp only [openObject, slot_of_present _ hget hv, h]

/-! ## Containers in documents -/

/-- Reads a container whose fields nest at most `levels` deep. -/
def reader (rounds levels : Nat) : Reader Container := fun s => do
  let (fields, s) ← Json.table "a map" rounds [] (Json.keep (Json.value rounds levels)) s
  .ok (⟨fields⟩, s)

/-- Reads a document that is one container. -/
def parse (document : String) : Except Json.Report Container :=
  Json.decode (fun rounds => reader rounds (Json.maxNesting - 1)) document

/-- Reads a document that is a list of containers. -/
def parseList (document : String) : Except Json.Report (List Container) :=
  Json.decode (fun rounds => Json.list rounds (reader rounds (Json.maxNesting - 2))) document

/-- A list of containers as a document. -/
def listToJson (containers : List Container) : Value := .array (containers.map toJson)

end Container

end TaskRevision
