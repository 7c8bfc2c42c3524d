import TaskRevision.Proofs.Editor.Frame
import TaskRevision.Proofs.Editor.Rows
/-!
# The image after edits

Each image edit starts from the image that the container had at first, and not from what an edit before
it has left.  So of several image edits the last decides alone, together with the first image.

* `lastImage?` — the last image edit of a row;
* `Mode.image?` — what an image edit makes of the first image;
* `Applied.image_cases` — **the image after a row of edits**;
* `imaged_applyAll` — the statement about all containers of an editor.
-/

namespace TaskRevision

open Json (Value)
open Update (Mode Record)
open Container

/-- What an edit makes of the image that a container had at first, if it can be applied. -/
def Update.Mode.image? (mode : Mode) (value : String) (first : Option String) : Option String :=
  match mode with
  | .imageAndTag => some value
  | .image => first.map fun image => (ImageReference.parse image).withRepository value
  | .tag => first.map fun image => (ImageReference.parse image).withTag value

theorem revise_eq_ok_iff {mode : Mode} {container value image : String} {first : Option String} :
    mode.revise container value first = .ok image ↔ mode.image? value first = some image := by
  cases mode <;> cases first <;> simp [Mode.revise, Mode.image?]

/-- The image edit that is in a record. -/
def Update.Record.image? : Record → Option (Mode × String)
  | .image _ mode value => some (mode, value)
  | _ => none

/-- The last image edit of a row. -/
def lastImage? (records : List Record) : Option (Mode × String) :=
  (records.filterMap Record.image?).getLast?

/-- A record without an image edit writes elsewhere. -/
theorem field_ne_of_image? {record : Record} (h : record.image? = none) :
    imageField ≠ record.field := by
  cases record with
  | image => cases h
  | environment => exact (Listing.field_ne_imageField .environment).symm
  | label => exact (by decide : imageField ≠ labelsField)
  | secret => exact (Listing.field_ne_imageField .secrets).symm

theorem lastImage?_append_of_none {records : List Record} {record : Record}
    (h : record.image? = none) : lastImage? (records ++ [record]) = lastImage? records := by
  rw [lastImage?, List.filterMap_append, List.filterMap_cons_none h, List.filterMap_nil,
    List.append_nil, ← lastImage?]

theorem lastImage?_append_of_some {records : List Record} {record : Record} {edit : Mode × String}
    (h : record.image? = some edit) : lastImage? (records ++ [record]) = some edit := by
  rw [lastImage?, List.filterMap_append, List.filterMap_cons_some h, List.filterMap_nil,
    List.getLast?_concat]

/-- **The image after a row of edits.**  It is as it was, or it is what the last image edit makes of the
first image. -/
theorem Applied.image_cases {first : Option String} {c c' : Container} {records : List Record}
    (h : Applied first c records c') :
    (lastImage? records = none ∧ c'.get? imageField = c.get? imageField) ∨
      ∃ mode value image, lastImage? records = some (mode, value) ∧
        mode.image? value first = some image ∧ c'.get? imageField = some (.string image) := by
  induction h with
  | nil => exact .inl ⟨rfl, rfl⟩
  | @snoc records record c' c'' _ hedit ih =>
      cases himage : record.image? with
      | none =>
          obtain ⟨v, rfl⟩ := edit_eq_set hedit
          rw [lastImage?_append_of_none himage, get?_set_of_ne c' v (field_ne_of_image? himage)]
          exact ih
      | some edit =>
          cases record with
          | image container mode value =>
              cases himage
              obtain ⟨image, hrevise, rfl⟩ := editImage_eq_ok_iff.1 hedit
              exact .inr ⟨mode, value, image, lastImage?_append_of_some rfl,
                revise_eq_ok_iff.1 hrevise, get?_set_self ..⟩
          | environment => cases himage
          | label => cases himage
          | secret => cases himage

/-- The image of `new` is that of `old`, or what the last image edit in the records makes of that one. -/
structure Container.ImagedBy (old : Container) (records : List Record) (new : Container) : Prop where
  /-- Without an image edit the field is as it was: missing, null or whatever it may be. -/
  same : lastImage? records = none → new.get? imageField = old.get? imageField
  /-- An image that the last edit gives as a whole stands there as it is given. -/
  whole : ∀ {value : String}, lastImage? records = some (.imageAndTag, value) →
    new.get? imageField = some (.string value)
  /-- A repository takes the place of the one in the old image, which is a text. -/
  repository : ∀ {value : String}, lastImage? records = some (.image, value) →
    ∃ image, old.get? imageField = some (.string image) ∧
      new.get? imageField = some (.string ((ImageReference.parse image).withRepository value))
  /-- A tag takes the place of the one in the old image, which is a text. -/
  tag : ∀ {value : String}, lastImage? records = some (.tag, value) →
    ∃ image, old.get? imageField = some (.string image) ∧
      new.get? imageField = some (.string ((ImageReference.parse image).withTag value))

/-- An image edit that is the last of a row has been applied to the first image. -/
theorem Applied.get?_of_lastImage? {first : Option String} {c c' : Container}
    {records : List Record} (h : Applied first c records c') {mode : Mode} {value : String}
    (hlast : lastImage? records = some (mode, value)) : ∃ image,
      mode.image? value first = some image ∧ c'.get? imageField = some (.string image) := by
  rcases h.image_cases with ⟨hnone, -⟩ | ⟨mode', value', image, hlast', himage, hget⟩
  · rw [hnone] at hlast
    cases hlast
  · rw [hlast'] at hlast
    cases hlast
    exact ⟨image, himage, hget⟩

theorem Applied.imagedBy {c c' : Container} {records : List Record}
    (h : Applied c.image? c records c') : c.ImagedBy records c' where
  same hnone := by
    rcases h.image_cases with ⟨-, hsame⟩ | ⟨mode, value, image, hlast, -, -⟩
    · exact hsame
    · rw [hnone] at hlast
      cases hlast
  whole hlast := by
    obtain ⟨image, himage, hget⟩ := h.get?_of_lastImage? hlast
    cases himage
    exact hget
  repository hlast := by
    obtain ⟨image, himage, hget⟩ := h.get?_of_lastImage? hlast
    obtain ⟨old, hold, rfl⟩ := Option.map_eq_some_iff.1 himage
    exact ⟨old, Container.image?_eq_some_iff.1 hold, hget⟩
  tag hlast := by
    obtain ⟨image, himage, hget⟩ := h.get?_of_lastImage? hlast
    obtain ⟨old, hold, rfl⟩ := Option.map_eq_some_iff.1 himage
    exact ⟨old, Container.image?_eq_some_iff.1 hold, hget⟩

/-! ## Editors -/

namespace Editor

variable {original : List Container}

/-- The images in the editor are the `original` ones, each changed by the last image edit that names its
container, and by nothing else. -/
structure Imaged (original : List Container) (records : List Record) (editor : Editor) : Prop where
  /-- There are as many containers as there were. -/
  length : editor.containers.length = original.length
  /-- The image of each is decided by the one that it had and the last edit of it. -/
  imaged : ∀ {i : Nat} {old : Container}, original[i]? = some old →
    ∃ new, editor.containers[i]? = some new ∧ old.ImagedBy (targeting old.name? records) new

/-- **The last image edit decides, together with the first image.**  After a row of records that is
applied to the end no other image edit, of whatever mode, has left a trace. -/
theorem imaged_applyAll {start : Editor} (h : ofContainers original = .ok start)
    {records : List Record} {n : Nat} (hok : (start.applyAll records).2 = .ok n) :
    (start.applyAll records).1.Imaged original records := by
  have hall := History.of_applyAll h hok
  refine ⟨hall.length, fun {i old} hold => ?_⟩
  obtain ⟨new, hnew⟩ := hall.exists_current hold
  exact ⟨new, hnew, (hall.applied hold hnew).imagedBy⟩

/-- A tag behind an image that is set and a repository, an image that is set where there was none, and
an image that is no text and stays. -/
theorem imaged_applyAll_mixed_modes :
    let web : Container := ⟨[("name", .string "web"), ("image", .string "host:5000/app:1")]⟩
    let db : Container := ⟨[("name", .string "db")]⟩
    let job : Container := ⟨[("image", .null), ("name", .string "job")]⟩
    let start : Editor := ⟨[web, db, job], ⟨[("web", ⟨0, some "host:5000/app:1", [], [], []⟩),
      ("db", ⟨1, none, [], [], []⟩), ("job", ⟨2, none, [], [], []⟩)]⟩⟩
    let records : List Record := [.image "web" .imageAndTag "nginx:9", .image "db" .imageAndTag "a:1",
      .environment "job" "A" "1", .image "web" .image "redis", .label "web" "k" "v",
      .image "web" .tag "2", .image "db" .imageAndTag "b"]
    ofContainers [web, db, job] = .ok start ∧ (start.applyAll records).2 = .ok 7 ∧
      (start.applyAll records).1.Imaged [web, db, job] records :=
  ⟨rfl, rfl, imaged_applyAll rfl rfl⟩

end Editor

end TaskRevision
