import TaskRevision.Proofs.Container.Fields
import TaskRevision.Proofs.Index.Places
/-!
# Edits without an index

What a record makes of a container can be said without an index: look for the entry that it names,
write it there or behind the others.  `Record.edit` does so; it reads nothing but the container and
the image that the container had at first.

The main result is that the indexed edit is this one (`revise_tracking`): given the entry that an
index built of the container as it stands would hold, with the first image in it, the edit by index
does what the plain edit does and hands back the entry that fits the edited container.  A record that
fails hands back container and entry as they were, although the field was opened before its value was
looked at.
-/

namespace TaskRevision

open Json (Value Members)
open Update (Record)
open Container

/-! ## Plain edits -/

/-- The items with an entry written: the last one of the name, or a new one behind the others. -/
def upsert (name key value : String) (items : List Value) : List Value :=
  (overwriteLast? name key value items).getD (items ++ [namedEntry name key value])

/-- The container with an entry of a list written. -/
def Container.edit (c : Container) (listing : Listing) (container name value : String) :
    Except Failure Container :=
  match c.array? listing.field with
  | none => .error (.malformed (.notArray container listing.field))
  | some items =>
      .ok (c.set listing.field (.array (upsert name listing.valueKey value items)))

/-- The container with a docker label written. -/
def Container.editLabel (c : Container) (container key value : String) : Except Failure Container :=
  match c.object? labelsField with
  | none => .error (.malformed (.notObject container labelsField))
  | some labels => .ok (c.set labelsField (.object (Keyed.insert key (.string value) labels)))

/-- What a record makes of a container that had the image `first` before any edit. -/
def Update.Record.edit (record : Record) (first : Option String) (c : Container) :
    Except Failure Container :=
  match record with
  | .image container mode value => (mode.revise container value first).map c.setImage
  | .environment container name value => c.edit .environment container name value
  | .label container key value => c.editLabel container key value
  | .secret container name source => c.edit .secrets container name source

/-- The field that a record writes. -/
def Update.Record.field : Record → String
  | .image .. => imageField
  | .environment .. => Listing.environment.field
  | .label .. => labelsField
  | .secret .. => Listing.secrets.field

/-! ## The fields that edits write -/

/-- The lists and the labels stand in different fields. -/
theorem Container.Listing.field_ne {listing other : Listing} (h : other ≠ listing) :
    other.field ≠ listing.field := by
  cases listing <;> cases other <;> first | exact absurd rfl h | decide

theorem Container.Listing.field_ne_labelsField (listing : Listing) : listing.field ≠ labelsField := by
  cases listing <;> decide

theorem Container.Listing.field_ne_imageField (listing : Listing) : listing.field ≠ imageField := by
  cases listing <;> decide

/-- What an edit of a list has done, if it could be done. -/
theorem edit_list_eq_ok_iff {c c' : Container} {listing : Listing} {container name value : String} :
    c.edit listing container name value = .ok c' ↔ ∃ items, c.array? listing.field = some items ∧
      c' = c.set listing.field (.array (upsert name listing.valueKey value items)) := by
  rw [Container.edit]
  cases c.array? listing.field with
  | none => simp
  | some items => simp [eq_comm]

/-- What an edit of a label has done, if it could be done. -/
theorem editLabel_eq_ok_iff {c c' : Container} {container key value : String} :
    c.editLabel container key value = .ok c' ↔ ∃ labels, c.object? labelsField = some labels ∧
      c' = c.set labelsField (.object (Keyed.insert key (.string value) labels)) := by
  rw [editLabel]
  cases c.object? labelsField with
  | none => simp
  | some labels => simp [eq_comm]

/-- What an edit of the image has done, if it could be done. -/
theorem editImage_eq_ok_iff {c c' : Container} {first : Option String} {container value : String}
    {mode : Update.Mode} :
    (Record.image container mode value).edit first c = .ok c' ↔
      ∃ image, mode.revise container value first = .ok image ∧ c' = c.setImage image := by
  rw [Record.edit]
  cases mode.revise container value first with
  | error failure => simp [Except.map]
  | ok image => simp [Except.map, eq_comm]

/-- An edit writes the field of its record, and nothing else. -/
theorem edit_eq_set {record : Record} {first : Option String} {c c' : Container}
    (h : record.edit first c = .ok c') : ∃ v, c' = c.set record.field v := by
  cases record with
  | image container mode value =>
      obtain ⟨image, -, rfl⟩ := editImage_eq_ok_iff.1 h
      exact ⟨.string image, rfl⟩
  | environment container name value =>
      obtain ⟨items, -, rfl⟩ := edit_list_eq_ok_iff.1 h
      exact ⟨_, rfl⟩
  | label container key value =>
      obtain ⟨labels, -, rfl⟩ := editLabel_eq_ok_iff.1 h
      exact ⟨_, rfl⟩
  | secret container name source =>
      obtain ⟨items, -, rfl⟩ := edit_list_eq_ok_iff.1 h
      exact ⟨_, rfl⟩

/-! ## What the index would hold -/

namespace Entry

/-- The entry that an index of the containers as they stand would hold, with the first image. -/
def tracking (position : Nat) (first : Option String) (c : Container) : Entry :=
  { Entry.ofContainer position c with image := first }

variable {position : Nat} {first : Option String} {c : Container}

theorem positions_tracking (listing : Listing) :
    (tracking position first c).positions listing
      = Positions.ofNames (c.namedEntries listing.field) := by
  cases listing <;> rfl

/-- The image is no part of what is looked up by name. -/
theorem tracking_setImage (image : String) :
    tracking position first (c.setImage image) = tracking position first c := by
  simp only [tracking, ofContainer, setImage]
  rw [namedEntries_set_of_ne c _ (by decide), namedEntries_set_of_ne c _ (by decide),
    labelKeys_set_of_ne c _ (by decide)]

/-- Writing a list so that all names keep their positions leaves the entry as it is. -/
theorem tracking_set_of_eq {listing : Listing} {items : List Value}
    (h : Positions.ofNames (namesOf items) = Positions.ofNames (c.namedEntries listing.field)) :
    tracking position first (c.set listing.field (.array items)) = tracking position first c := by
  cases listing
  all_goals
    simp only [tracking, ofContainer, namedEntries_set_self, h]
    rw [namedEntries_set_of_ne c _ (by decide), labelKeys_set_of_ne c _ (by decide)]

/-- Writing a list so that one name gets a position records this position in the entry. -/
theorem tracking_set_of_insert {listing : Listing} {items : List Value} {name : String} {n : Nat}
    (h : Positions.ofNames (namesOf items)
      = Keyed.insert name n (Positions.ofNames (c.namedEntries listing.field))) :
    tracking position first (c.set listing.field (.array items))
      = (tracking position first c).record listing name n := by
  cases listing
  all_goals
    simp only [tracking, ofContainer, record, namedEntries_set_self, h]
    rw [namedEntries_set_of_ne c _ (by decide), labelKeys_set_of_ne c _ (by decide)]

end Entry

/-! ## The indexed edit is the plain one -/

theorem Container.Listing.valueKey_ne_nameKey (listing : Listing) : listing.valueKey ≠ nameKey := by
  cases listing <;> decide

variable (position : Nat) (first : Option String) {c : Container}

/-- Writing an entry by the index is writing it by looking, and the index follows. -/
theorem put_tracking (listing : Listing) (name value : String) {items : List Value}
    (h : c.array? listing.field = some items) :
    put listing name value items (.tracking position first c)
      = (upsert name listing.valueKey value items, .tracking position first
          (c.set listing.field (.array (upsert name listing.valueKey value items)))) := by
  have hnames := namedEntries_of_array? h
  rw [put, Entry.positions_tracking, hnames, bind_overwrite?, upsert]
  cases hlast : overwriteLast? name listing.valueKey value items with
  | some items' =>
      have hpositions := ofNames_namesOf_overwriteLast? listing.valueKey_ne_nameKey hlast
      rw [Option.getD_some, Entry.tracking_set_of_eq (hnames ▸ hpositions)]
  | none =>
      have hpositions := ofNames_namesOf_append name listing.valueKey value items
      rw [Option.getD_none, Entry.tracking_set_of_insert (hnames ▸ hpositions)]

theorem revise_list_tracking (listing : Listing) (container name value : String) (c : Container) :
    c.revise (.tracking position first c) listing container name value
      = match c.edit listing container name value with
        | .ok c' => ((c', .tracking position first c'), .ok ())
        | .error failure => ((c, .tracking position first c), .error failure) := by
  cases h : c.array? listing.field with
  | none => simp only [Container.revise, Container.edit, openArray_of_not_array? h, h]
  | some items =>
      simp only [Container.revise, Container.edit, openArray_of_array? h, h, set_set]
      rw [put_tracking position first listing name value h]

theorem reviseLabel_tracking (container key value : String) (c : Container) :
    c.reviseLabel (.tracking position first c) container key value
      = match c.editLabel container key value with
        | .ok c' => ((c', .tracking position first c'), .ok ())
        | .error failure => ((c, .tracking position first c), .error failure) := by
  cases h : c.object? labelsField with
  | none => simp only [reviseLabel, editLabel, openObject_of_not_object? h, h]
  | some labels =>
      have hkeys := labelKeys_of_object? h
      have hpositions := ofNames_keysOf_insert key (.string value) labels
      simp only [reviseLabel, editLabel, openObject_of_object? h, h, set_set, Entry.tracking,
        Entry.ofContainer, Entry.recordLabel, labelKeys_set_self, hkeys, hpositions]
      rw [namedEntries_set_of_ne c _ (by decide), namedEntries_set_of_ne c _ (by decide)]
      cases (Positions.ofNames (keysOf labels)).lookup key <;> rfl

/-- **The edit by index is the plain edit, and leaves an entry that fits.** -/
theorem revise_tracking (record : Record) (c : Container) :
    record.revise c (.tracking position first c)
      = match record.edit first c with
        | .ok c' => ((c', .tracking position first c'), .ok ())
        | .error failure => ((c, .tracking position first c), .error failure) := by
  cases record with
  | image container mode value =>
      have himage : (Entry.tracking position first c).image = first := rfl
      rw [Record.revise, Record.edit, reviseImage, himage]
      cases mode.revise container value first with
      | error failure => rfl
      | ok image =>
          simp only [Except.map]
          rw [Entry.tracking_setImage]
  | environment container name value =>
      exact revise_list_tracking position first .environment container name value c
  | label container key value => exact reviseLabel_tracking position first container key value c
  | secret container name source =>
      exact revise_list_tracking position first .secrets container name source c

end TaskRevision
