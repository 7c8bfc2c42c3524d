import TaskRevision.Proofs.Editor.History
import TaskRevision.Proofs.Editor.Items
/-!
# What a row of records comes to

The editor applies records one after the other, each through an index that the ones before have
changed.  What the row comes to can be said at once: each list that is edited is merged with its edits
(`mergeItems`), the docker labels are overlaid with theirs (`Keyed.overlay`), and a field that is not
edited is as it was.

* `Collection` — a field whose parts records write, and what a row of such edits comes to;
* `Collection.get?_of_applied` — the induction over a row of edits, for all collections at once;
* `merged_applyAll` — the statement about all containers of an editor.
-/

namespace TaskRevision

open Json (Value Members)
open Update (Record)
open Container

/-! ## The edits in records -/

/-- The entry of a list that a record writes. -/
def Update.Record.entry? : Listing → Record → Option (String × String)
  | .environment, .environment _ name value => some (name, value)
  | .secrets, .secret _ name source => some (name, source)
  | _, _ => none

/-- The docker label that a record writes. -/
def Update.Record.label? : Record → Option (String × Value)
  | .label _ key value => some (key, .string value)
  | _ => none

theorem field_ne_of_entry? {listing : Listing} {record : Record}
    (h : Record.entry? listing record = none) : listing.field ≠ record.field := by
  cases record with
  | image => exact listing.field_ne_imageField
  | environment =>
      have hother : listing ≠ .environment := by
        rintro rfl
        cases h
      exact Listing.field_ne hother
  | label => exact listing.field_ne_labelsField
  | secret =>
      have hother : listing ≠ .secrets := by
        rintro rfl
        cases h
      exact Listing.field_ne hother

theorem field_ne_of_label? {record : Record} (h : record.label? = none) :
    labelsField ≠ record.field := by
  cases record with
  | image => exact (by decide : labelsField ≠ imageField)
  | environment => exact (Listing.field_ne_labelsField .environment).symm
  | label => cases h
  | secret => exact (Listing.field_ne_labelsField .secrets).symm

theorem edit_of_entry? {listing : Listing} {record : Record} {entry : String × String}
    {first : Option String} {c c' : Container} (h : Record.entry? listing record = some entry)
    (hedit : record.edit first c = .ok c') : ∃ items, c.array? listing.field = some items ∧
      c' = c.set listing.field (.array (upsert entry.1 listing.valueKey entry.2 items)) := by
  cases listing with
  | environment => cases record <;> cases h; exact edit_list_eq_ok_iff.1 hedit
  | secrets => cases record <;> cases h; exact edit_list_eq_ok_iff.1 hedit

theorem edit_of_label? {record : Record} {label : String × Value} {first : Option String}
    {c c' : Container} (h : record.label? = some label) (hedit : record.edit first c = .ok c') :
    ∃ members, c.object? labelsField = some members ∧
      c' = c.set labelsField (.object (Keyed.insert label.1 label.2 members)) := by
  cases record <;> cases h
  exact editLabel_eq_ok_iff.1 hedit

/-! ## Collections -/

/-- A field whose parts records write, one at a time. -/
structure Collection (ε γ : Type) where
  /-- The field. -/
  field : String
  /-- What edits start from, unless the field cannot be edited. -/
  read? : Container → Option γ
  /-- The value that edits leave in the field. -/
  value : γ → Value
  /-- The edit that is in a record. -/
  edit? : Record → Option ε
  /-- What one edit does. -/
  write : ε → γ → γ
  /-- What a row of edits comes to. -/
  merge : List ε → γ → γ
  /-- Only the field is read. -/
  read?_congr : ∀ {c c' : Container}, c'.get? field = c.get? field → read? c' = read? c
  /-- What edits leave can be edited again. -/
  read?_set : ∀ (c : Container) (x : γ), read? (c.set field (value x)) = some x
  /-- A record without an edit writes elsewhere. -/
  field_ne : ∀ {record : Record}, edit? record = none → field ≠ record.field
  /-- A record with an edit does what the edit does. -/
  set_of_edit : ∀ {record : Record} {e : ε} {first : Option String} {c c' : Container},
    edit? record = some e → record.edit first c = .ok c' →
    ∃ x, read? c = some x ∧ c' = c.set field (value (write e x))
  /-- No edits come to nothing. -/
  merge_nil : ∀ x : γ, merge [] x = x
  /-- One more edit is one more thing written. -/
  write_merge : ∀ (e : ε) (edits : List ε) (x : γ), write e (merge edits x) = merge (edits ++ [e]) x

namespace Collection

variable {ε γ : Type} (collection : Collection ε γ)

/-- What stands in the field after an edit is what the next edit starts from. -/
theorem read?_of_get? {c : Container} {x : γ}
    (h : c.get? collection.field = some (collection.value x)) : collection.read? c = some x := by
  have hread := collection.read?_set c x
  rwa [set_of_get? h] at hread

/-- **The field after a row of edits.**  Either no record has an edit of it and it is as it was, or it
holds what it held, merged with all edits. -/
theorem get?_of_applied {first : Option String} {c c' : Container} {records : List Record}
    (h : Applied first c records c') :
    (records.filterMap collection.edit? = [] ∧
      c'.get? collection.field = c.get? collection.field) ∨
    (records.filterMap collection.edit? ≠ [] ∧ ∃ x, collection.read? c = some x ∧
      c'.get? collection.field
        = some (collection.value (collection.merge (records.filterMap collection.edit?) x))) := by
  induction h with
  | nil => exact .inl ⟨rfl, rfl⟩
  | @snoc records record c' c'' _ hedit ih =>
      rw [List.filterMap_append]
      cases hrecord : collection.edit? record with
      | none =>
          obtain ⟨v, rfl⟩ := edit_eq_set hedit
          rw [List.filterMap_cons_none hrecord, List.filterMap_nil, List.append_nil,
            get?_set_of_ne c' v (collection.field_ne hrecord)]
          exact ih
      | some e =>
          obtain ⟨x', hread, rfl⟩ := collection.set_of_edit hrecord hedit
          rw [List.filterMap_cons_some hrecord, List.filterMap_nil, get?_set_self]
          refine .inr ⟨by simp, ?_⟩
          rcases ih with ⟨hnone, hsame⟩ | ⟨-, x, hx, hget⟩
          · -- the first edit of the field
            refine ⟨x', (collection.read?_congr hsame).symm.trans hread, ?_⟩
            rw [hnone, ← collection.write_merge, collection.merge_nil]
          · obtain rfl := Option.some.inj ((collection.read?_of_get? hget).symm.trans hread)
            exact ⟨x, hx, by rw [collection.write_merge]⟩

/-- The entries of a list. -/
def list (listing : Listing) : Collection (String × String) (List Value) where
  field := listing.field
  read? c := c.array? listing.field
  value := .array
  edit? := Record.entry? listing
  write edit := upsert edit.1 listing.valueKey edit.2
  merge := mergeItems listing.valueKey
  read?_congr h := by rw [array?, array?, h]
  read?_set c items := array?_set_self c listing.field items
  field_ne := field_ne_of_entry?
  set_of_edit := edit_of_entry?
  merge_nil := mergeItems_nil listing.valueKey
  write_merge edit edits items :=
    upsert_mergeItems listing.valueKey_ne_nameKey edits edit.1 edit.2 items

/-- The docker labels. -/
def labels : Collection (String × Value) Members where
  field := labelsField
  read? c := c.object? labelsField
  value := .object
  edit? := Record.label?
  write edit := Keyed.insert edit.1 edit.2
  merge := Keyed.overlay
  read?_congr h := by rw [object?, object?, h]
  read?_set c members := object?_set_self c labelsField members
  field_ne := field_ne_of_label?
  set_of_edit := edit_of_label?
  merge_nil := Keyed.overlay_nil
  write_merge edit edits members := Keyed.insert_overlay edits edit members

end Collection

/-! ## Containers -/

/-- The collections of `new` are those of `old`, merged with the edits in the records. -/
structure Container.MergedBy (old : Container) (records : List Record) (new : Container) : Prop where
  /-- A list without edits is as it was: missing, null or whatever it may be. -/
  list_same : ∀ listing : Listing, records.filterMap (Record.entry? listing) = [] →
    new.get? listing.field = old.get? listing.field
  /-- A list with edits is the old one, merged with them. -/
  list : ∀ listing : Listing, records.filterMap (Record.entry? listing) ≠ [] →
    ∃ items, old.array? listing.field = some items ∧ new.get? listing.field
      = some (.array (mergeItems listing.valueKey (records.filterMap (Record.entry? listing)) items))
  /-- Docker labels without edits are as they were. -/
  labels_same : records.filterMap Record.label? = [] → new.get? labelsField = old.get? labelsField
  /-- Docker labels with edits are the old ones, overlaid with them. -/
  labels : records.filterMap Record.label? ≠ [] →
    ∃ members, old.object? labelsField = some members ∧ new.get? labelsField
      = some (.object (Keyed.overlay (records.filterMap Record.label?) members))
  /-- Where no label stood twice: the old labels, with the values that were set last, and behind them
  the new ones, in the order of first edits. -/
  labels_distinct : records.filterMap Record.label? ≠ [] →
    ∀ members, old.object? labelsField = some members → (Keyed.keys members).Nodup →
    new.get? labelsField = some (.object
      ((members.map fun member =>
          (member.1, (Keyed.lastValue? (records.filterMap Record.label?) member.1).getD member.2))
        ++ (Keyed.settled (records.filterMap Record.label?)).filter
            fun label => label.1 ∉ Keyed.keys members))

theorem Applied.mergedBy {first : Option String} {c c' : Container} {records : List Record}
    (h : Applied first c records c') : c.MergedBy records c' where
  list_same listing hnone := by
    rcases (Collection.list listing).get?_of_applied h with ⟨-, hsame⟩ | ⟨hsome, -⟩
    · exact hsame
    · exact absurd hnone hsome
  list listing hsome := by
    rcases (Collection.list listing).get?_of_applied h with ⟨hnone, -⟩ | ⟨-, hmerged⟩
    · exact absurd hnone hsome
    · exact hmerged
  labels_same hnone := by
    rcases Collection.labels.get?_of_applied h with ⟨-, hsame⟩ | ⟨hsome, -⟩
    · exact hsame
    · exact absurd hnone hsome
  labels hsome := by
    rcases Collection.labels.get?_of_applied h with ⟨hnone, -⟩ | ⟨-, hmerged⟩
    · exact absurd hnone hsome
    · exact hmerged
  labels_distinct hsome members hmembers hdistinct := by
    rcases Collection.labels.get?_of_applied h with ⟨hnone, -⟩ | ⟨-, members', hmembers', hmerged⟩
    · exact absurd hnone hsome
    · obtain rfl := Option.some.inj (hmembers'.symm.trans hmembers)
      rw [← Keyed.overlay_eq_of_nodup hdistinct]
      exact hmerged

/-! ## Editors -/

namespace Editor

variable {original : List Container}

/-- The containers of the editor are the `original` ones, merged with the records that name them. -/
structure Merged (original : List Container) (records : List Record) (editor : Editor) : Prop where
  /-- There are as many containers as there were. -/
  length : editor.containers.length = original.length
  /-- Each is merged with the records that name it. -/
  merged : ∀ {i : Nat} {old : Container}, original[i]? = some old →
    ∃ new, editor.containers[i]? = some new ∧ old.MergedBy (targeting old.name? records) new

/-- **A row of records that is applied to the end merges its edits into the containers.**  The editor
that goes through an index, record after record, leaves the collections as if each had been merged with
all its edits at once. -/
theorem merged_applyAll {start : Editor} (h : ofContainers original = .ok start)
    {records : List Record} {n : Nat} (hok : (start.applyAll records).2 = .ok n) :
    (start.applyAll records).1.Merged original records := by
  have hall := (History.of_ofContainers h).applyAll_ok hok
  rw [List.nil_append] at hall
  refine ⟨hall.length, fun {i old} hold => ?_⟩
  obtain ⟨new, hnew⟩ := hall.exists_current hold
  exact ⟨new, hnew, (hall.applied hold hnew).mergedBy⟩

/-- A name that stands twice, an item that is none, a name that is added and then set again. -/
theorem merged_applyAll_repeated_name :
    let web : Container := ⟨[("name", .string "web"), ("dockerLabels", .null), ("environment", .array
      [.object [("name", .string "A"), ("value", .null)], .null, .object [("name", .string "A")]])]⟩
    let start : Editor := ⟨[web], ⟨[("web", ⟨0, none, [("A", 2)], [], []⟩)]⟩⟩
    let records : List Record := [.environment "web" "B" "1", .label "web" "k" "v",
      .environment "web" "A" "2", .secret "web" "S" "arn", .environment "web" "B" "3"]
    ofContainers [web] = .ok start ∧ (start.applyAll records).2 = .ok 5 ∧
      (start.applyAll records).1.Merged [web] records :=
  ⟨rfl, rfl, merged_applyAll rfl rfl⟩

end Editor

end TaskRevision
