import TaskRevision.Proofs.Editor.Exact
import TaskRevision.Proofs.Editor.Fields
import TaskRevision.Proofs.Editor.Image
import TaskRevision.Proofs.Editor.Merge
import TaskRevision.Proofs.Editor.Rows
import TaskRevision.Proofs.ImageReference
/-!
# The same records once more

A row of records that has been applied to the end can be applied once more, by a new editor, to the
containers that it has left, and then changes nothing.  The second run starts from another index and
from other images, and what it finds on its way is not what the first run found; but in each field it
ends where the first one has ended.  For collections that is so because merging the same edits twice is
merging them once.  For an image the part that the last edit has put in must be found again, when the
image is taken apart: `Repeatable` says when it is.

* `repeatable_iff` — the image edits that leave alone what they have made;
* `Collection.get?_again`, `Applied.image_again` — the fields after a second run;
* `Applied.again` — **a container after a second run is as the first run has left it**;
* `Applied.fit` — what could be edited once can be edited again;
* `applyAll_again` — the statement about all containers of an editor.
-/

namespace TaskRevision

open Update (Mode Record)
open Container

/-! ## Collections -/

/-- What a second run of the same edits leaves in a collection, where merging twice is merging once. -/
theorem Collection.get?_again {ε γ : Type} (collection : Collection ε γ)
    (hmerge : ∀ (edits : List ε) (x : γ),
      collection.merge edits (collection.merge edits x) = collection.merge edits x)
    {first second : Option String} {c c' c'' : Container} {records : List Record}
    (h : Applied first c records c') (h' : Applied second c' records c'') :
    c''.get? collection.field = c'.get? collection.field := by
  rcases collection.get?_of_applied h' with ⟨-, hsame⟩ | ⟨hsome, x', hx', hget'⟩
  · exact hsame
  · rcases collection.get?_of_applied h with ⟨hnone, -⟩ | ⟨-, x, -, hget⟩
    · exact absurd hnone hsome
    · -- the second run starts from what the first one has left
      obtain rfl := Option.some.inj (hx'.symm.trans (collection.read?_of_get? hget))
      rw [hget', hget, hmerge]

/-! ## Images -/

/-- An image edit that finds its part again in the image that it has made of the `first` one. -/
def Repeatable (first : Option String) : Mode × String → Prop
  | (.imageAndTag, _) => True
  | (.tag, value) => ':' ∉ value.toList ∧ '/' ∉ value.toList
  | (.image, value) => (∃ image, first = some image ∧ (ImageReference.parse image).tag ≠ none) ∨
      (ImageReference.parse value).tag = none

/-- These edits, and no others, leave alone the image that they have made. -/
theorem repeatable_iff {first : Option String} {mode : Mode} {value image : String}
    (himage : mode.image? value first = some image) :
    Repeatable first (mode, value) ↔ mode.image? value (some image) = some image := by
  cases mode with
  | imageAndTag => exact iff_of_true trivial himage
  | image =>
      obtain ⟨old, rfl, rfl⟩ := Option.map_eq_some_iff.1 himage
      rw [Mode.image?, Option.map_some, Option.some.injEq,
        ImageReference.withRepository_parse_withRepository_iff, Repeatable]
      simp
  | tag =>
      obtain ⟨old, rfl, rfl⟩ := Option.map_eq_some_iff.1 himage
      rw [Mode.image?, Option.map_some, Option.some.injEq, ImageReference.withTag_parse_withTag_iff]
      rfl

section

variable {c c' c'' : Container} {records : List Record}

/-- What a second run of the same edits leaves of the image. -/
theorem Applied.image_again (h : Applied c.image? c records c')
    (h' : Applied c'.image? c' records c'')
    (hrepeatable : ∀ edit, lastImage? records = some edit → Repeatable c.image? edit) :
    c''.get? imageField = c'.get? imageField := by
  rcases h'.image_cases with ⟨-, hsame⟩ | ⟨mode, value, image', hlast, himage', hget'⟩
  · exact hsame
  · rcases h.image_cases with ⟨hnone, -⟩ | ⟨mode₁, value₁, image, hlast₁, himage, hget⟩
    · rw [hnone] at hlast
      cases hlast
    · rw [hlast] at hlast₁
      cases hlast₁
      have hsame := (repeatable_iff himage).1 (hrepeatable _ hlast)
      rw [Container.image?_eq_some_iff.2 hget, hsame] at himage'
      cases himage'
      rw [hget', hget]

/-! ## Containers -/

/-- **A container after a second run is as the first run has left it.** -/
theorem Applied.again (h : Applied c.image? c records c') (h' : Applied c'.image? c' records c'')
    (hrepeatable : ∀ edit, lastImage? records = some edit → Repeatable c.image? edit) : c'' = c' := by
  have hget : ∀ record : Record, c''.get? record.field = c'.get? record.field := by
    intro record
    cases record with
    | image => exact h.image_again h' hrepeatable
    | environment =>
        exact (Collection.list .environment).get?_again
          (mergeItems_mergeItems (Listing.valueKey_ne_nameKey _)) h h'
    | label => exact Collection.labels.get?_again Keyed.overlay_overlay h h'
    | secret =>
        exact (Collection.list .secrets).get?_again
          (mergeItems_mergeItems (Listing.valueKey_ne_nameKey _)) h h'
  obtain ⟨writes, hkeys, hfields⟩ := h'.exists_writes
  have hwritten : ∀ field v, Keyed.lastValue? writes field = some v → c'.get? field = some v := by
    intro field v hlast
    rw [lastValue?_writes hkeys hfields] at hlast
    split at hlast
    · next hmem =>
      obtain ⟨record, -, rfl⟩ := List.mem_map.1 hmem
      rwa [hget record] at hlast
    · cases hlast
  exact congrArg Container.mk (hfields.trans (Keyed.overlay_eq_self hwritten))

theorem lastImage?_ne_none {record : Record} (hmem : record ∈ records)
    {edit : Mode × String} (h : record.image? = some edit) : lastImage? records ≠ none := by
  intro hnone
  have hedits := List.getLast?_eq_none_iff.1 hnone
  have hedit : edit ∈ records.filterMap Record.image? := List.mem_filterMap.2 ⟨record, hmem, h⟩
  rw [hedits] at hedit
  cases hedit

/-- What could be edited once can be edited again. -/
theorem Applied.fit {first : Option String} (h : Applied first c records c') {record : Record}
    (hmem : record ∈ records) (hfit : ¬ record.Unfit c) : ¬ record.Unfit c' := by
  have hshape := h.sameShape
  have list : ∀ listing : Listing, c.array? listing.field ≠ none → c'.array? listing.field ≠ none := by
    intro listing hsome
    rw [← Option.isSome_iff_ne_none] at hsome ⊢
    rwa [hshape.lists listing]
  cases record with
  | image container mode value =>
      rintro ⟨-, hnone⟩
      rcases h.image_cases with ⟨hlast, -⟩ | ⟨-, -, image, -, -, hget⟩
      · exact lastImage?_ne_none hmem rfl hlast
      · rw [Container.image?_eq_some_iff.2 hget] at hnone
        cases hnone
  | environment container name value =>
      rw [Record.Unfit, ← array?_eq_none_iff] at hfit ⊢
      exact list .environment hfit
  | label container key value =>
      rw [Record.Unfit, ← object?_eq_none_iff] at hfit ⊢
      rw [← Ne, ← Option.isSome_iff_ne_none] at hfit ⊢
      rwa [hshape.labels]
  | secret container name source =>
      rw [Record.Unfit, ← array?_eq_none_iff] at hfit ⊢
      exact list .secrets hfit

end

/-! ## Editors -/

namespace Editor

variable {original : List Container} {records : List Record} {start editor : Editor}

theorem History.exists_again (h : History original records editor) :
    ∃ again, ofContainers editor.containers = .ok again := by
  obtain ⟨index, hbuild, -⟩ := h.rebuilt
  exact ⟨⟨editor.containers, index⟩, by rw [ofContainers, hbuild]; rfl⟩

/-- A record that the original containers allowed is allowed by what it has helped to make of them. -/
theorem History.verdict_again (h : History original records editor) {record : Record}
    (hmem : record ∈ records) (hok : record.verdict original = .ok ()) :
    record.verdict editor.containers = .ok () := by
  obtain ⟨o, ho, hname, hfit⟩ := (verdict_eq_ok_iff h.wellNamed record).1 hok
  obtain ⟨i, hi⟩ := List.mem_iff_getElem?.1 ho
  obtain ⟨c, hc⟩ := h.exists_current hi
  have htarget : record ∈ targeting o.name? records :=
    List.mem_filter.2 ⟨hmem, decide_eq_true hname.symm⟩
  exact (verdict_eq_ok_iff h.wellNamed_current record).2
    ⟨c, List.mem_of_getElem? hc, (h.name? hi hc).trans hname, (h.applied hi hc).fit htarget hfit⟩

/-- **The same records once more change nothing**, if the last image edit of each container is
repeatable.  A new editor of the containers that a row of records has left can be made, the row comes to
its end in it, and the containers stay what they are, down to the order of their fields. -/
theorem applyAll_again (h : ofContainers original = .ok start) {n : Nat}
    (hok : (start.applyAll records).2 = .ok n)
    (hrepeatable : ∀ o ∈ original, ∀ edit,
      lastImage? (targeting o.name? records) = some edit → Repeatable o.image? edit) :
    ∃ again, ofContainers (start.applyAll records).1.containers = .ok again ∧
      (again.applyAll records).2 = .ok n ∧
      (again.applyAll records).1.containers = (start.applyAll records).1.containers := by
  have hstart := History.of_ofContainers h
  have hdone := History.of_applyAll h hok
  obtain ⟨again, hagain⟩ := hdone.exists_again
  have hsecond := History.of_ofContainers hagain
  have hok' : (again.applyAll records).2 = .ok n := by
    obtain ⟨hverdicts, hlength⟩ := hstart.applyAll_eq_ok_iff.1 hok
    refine hsecond.applyAll_eq_ok_iff.2 ⟨fun record hmem => ?_, hlength⟩
    rw [hsecond.fault?_eq_none_iff]
    exact hdone.verdict_again hmem (hstart.fault?_eq_none_iff.1 (hverdicts record hmem))
  refine ⟨again, hagain, hok', List.ext_getElem? fun i => ?_⟩
  have hrow := History.of_applyAll hagain hok'
  cases hc : (start.applyAll records).1.containers[i]? with
  | none =>
      rw [List.getElem?_eq_none_iff] at hc ⊢
      rwa [hrow.length]
  | some c =>
      obtain ⟨o, ho⟩ := hdone.exists_original hc
      obtain ⟨c', hc'⟩ := hrow.exists_current hc
      have hfirst := hdone.applied ho hc
      have hagain' := hrow.applied hc hc'
      rw [hdone.name? ho hc] at hagain'
      rw [hc', hfirst.again hagain' (hrepeatable o (List.mem_of_getElem? ho))]

/-- A tag, an image that is set before it is moved, and names that are set twice. -/
theorem applyAll_again_two_containers :
    let web : Container := ⟨[("image", .string "host:5000/app"), ("name", .string "web"),
      ("environment", .array [.null, .object [("name", .string "A")]])]⟩
    let db : Container := ⟨[("name", .string "db"), ("image", .string "postgres:16")]⟩
    let start : Editor := ⟨[web, db], ⟨[("web", ⟨0, some "host:5000/app", [("A", 1)], [], []⟩),
      ("db", ⟨1, some "postgres:16", [], [], []⟩)]⟩⟩
    let records : List Record := [.environment "web" "B" "1", .label "db" "k" "v",
      .image "db" .imageAndTag "mysql:8", .environment "web" "A" "2", .secret "web" "S" "arn",
      .image "web" .tag "2", .environment "web" "B" "3", .image "db" .image "host:1/pg"]
    ofContainers [web, db] = .ok start ∧ (start.applyAll records).2 = .ok 8 ∧
      ∃ again, ofContainers (start.applyAll records).1.containers = .ok again ∧
        (again.applyAll records).2 = .ok 8 ∧
        (again.applyAll records).1.containers = (start.applyAll records).1.containers := by
  intro web db start records
  have hstart : ofContainers [web, db] = .ok start := rfl
  have hok : (start.applyAll records).2 = .ok 8 := rfl
  refine ⟨hstart, hok, applyAll_again hstart hok ?_⟩
  intro o ho edit hlast
  rcases List.mem_pair.1 ho with rfl | rfl
  · have hedit : edit = (.tag, "2") := (Option.some.inj hlast).symm
    subst hedit
    exact ⟨by decide, by decide⟩
  · have hedit : edit = (.image, "host:1/pg") := (Option.some.inj hlast).symm
    subst hedit
    exact .inl ⟨"postgres:16", rfl, by decide⟩

end Editor

end TaskRevision
