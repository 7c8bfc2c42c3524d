import TaskRevision.Container.Basic
/-!
# Fields of containers

What an edit may find in a field, and what it finds after the field has been written: the list or the
object that a field holds, the names in its list, the keys of the docker labels, the image.  Writing a
field changes what is found there, and nothing that is found elsewhere.

* `array?_eq_some_iff`, `object?_eq_some_iff` — what an edit of a field starts from;
* `array?_eq_none_iff`, `object?_eq_none_iff` — which fields cannot be edited;
* `namedEntries_set_self`, `labelKeys_set_self` — names and keys after a field has been written.
-/

namespace TaskRevision

open Json (Value Members)
open Container

/-! ## Texts, lists and objects -/

/-- The image is the text in its field. -/
theorem Container.image?_eq_some_iff {c : Container} {image : String} :
    c.image? = some image ↔ c.get? imageField = some (.string image) := by
  rw [Container.image?, Option.bind_eq_some_iff]
  constructor
  · rintro ⟨v, hget, htext⟩
    cases v <;> cases htext
    exact hget
  · intro hget
    exact ⟨.string image, hget, rfl⟩

theorem array?_eq_some_iff {c : Container} {field : String} {items : List Value} :
    c.array? field = some items ↔
      c.get? field = some (.array items) ∨
        items = [] ∧ (c.get? field = none ∨ c.get? field = some .null) := by
  rw [array?]
  cases h : c.get? field with
  | none => simp [eq_comm]
  | some v => cases v <;> simp [Value.array?, eq_comm]

theorem object?_eq_some_iff {c : Container} {field : String} {members : Members} :
    c.object? field = some members ↔
      c.get? field = some (.object members) ∨
        members = [] ∧ (c.get? field = none ∨ c.get? field = some .null) := by
  rw [object?]
  cases h : c.get? field with
  | none => simp [eq_comm]
  | some v => cases v <;> simp [Value.object?, eq_comm]

theorem array?_eq_none_iff {c : Container} {field : String} :
    c.array? field = none ↔
      ∃ v, c.get? field = some v ∧ v ≠ .null ∧ ∀ items, v ≠ .array items := by
  rw [array?]
  cases h : c.get? field with
  | none => simp
  | some v => cases v <;> simp [Value.array?]

theorem object?_eq_none_iff {c : Container} {field : String} :
    c.object? field = none ↔
      ∃ v, c.get? field = some v ∧ v ≠ .null ∧ ∀ members, v ≠ .object members := by
  rw [object?]
  cases h : c.get? field with
  | none => simp
  | some v => cases v <;> simp [Value.object?]

@[simp] theorem array?_set_self (c : Container) (field : String) (items : List Value) :
    (c.set field (.array items)).array? field = some items := by
  rw [array?, get?_set_self]
  rfl

theorem array?_set_of_ne (c : Container) {field other : String} (v : Value) (h : other ≠ field) :
    (c.set field v).array? other = c.array? other := by
  rw [array?, array?, get?_set_of_ne c v h]

@[simp] theorem object?_set_self (c : Container) (field : String) (members : Members) :
    (c.set field (.object members)).object? field = some members := by
  rw [object?, get?_set_self]
  rfl

theorem object?_set_of_ne (c : Container) {field other : String} (v : Value) (h : other ≠ field) :
    (c.set field v).object? other = c.object? other := by
  rw [object?, object?, get?_set_of_ne c v h]

/-! ## Names and keys -/

theorem namedEntries_of_array? {c : Container} {field : String} {items : List Value}
    (h : c.array? field = some items) : c.namedEntries field = namesOf items := by
  unfold array? at h
  unfold namedEntries
  split at h
  · next hget => cases h; rw [hget]; rfl
  · next hget => cases h; rw [hget]; rfl
  · next v hv hget => rw [hget, Option.bind_some, h]

theorem labelKeys_of_object? {c : Container} {labels : Members}
    (h : c.object? labelsField = some labels) : c.labelKeys = keysOf labels := by
  unfold object? at h
  unfold labelKeys
  split at h
  · next hget => cases h; rw [hget]; rfl
  · next hget => cases h; rw [hget]; rfl
  · next v hv hget => rw [hget, Option.bind_some, h]

theorem namedEntries_set_of_ne (c : Container) {field other : String} (v : Value)
    (h : other ≠ field) : (c.set field v).namedEntries other = c.namedEntries other := by
  rw [namedEntries, namedEntries, get?_set_of_ne c v h]

theorem labelKeys_set_of_ne (c : Container) {field : String} (v : Value) (h : labelsField ≠ field) :
    (c.set field v).labelKeys = c.labelKeys := by
  rw [labelKeys, labelKeys, get?_set_of_ne c v h]

@[simp] theorem namedEntries_set_self (c : Container) (field : String) (items : List Value) :
    (c.set field (.array items)).namedEntries field = namesOf items := by
  rw [namedEntries, get?_set_self]
  rfl

@[simp] theorem labelKeys_set_self (c : Container) (labels : Members) :
    (c.set labelsField (.object labels)).labelKeys = keysOf labels := by
  rw [labelKeys, get?_set_self]
  rfl

end TaskRevision
