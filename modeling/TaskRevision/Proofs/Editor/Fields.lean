import TaskRevision.Proofs.Editor.Frame
import TaskRevision.Proofs.Overlaid
/-!
# The fields that edits write

An edit reads and writes one field, that of its record, and beside it only the image that the container
had at first.  So what a row of edits leaves in a field depends on those records alone that write the
field, and the whole container is the old one, overlaid with the values that are written.

* `edit_local` — **an edit reads and writes one field**;
* `Applied.only` — what a field becomes, by the records of this field alone;
* `Applied.exists_writes` — a container after edits as an overlaid table of fields;
* `Applied.unique` — edits leave one container only.
-/

namespace TaskRevision

open Json (Value Members)
open Update (Record)
open Container

/-! ## One edit -/

/-- **An edit reads and writes one field.**  On two containers that have the same in the field of the
record it fails alike, or it writes the same value. -/
theorem edit_local {record : Record} {first : Option String} {c d : Container}
    (h : c.get? record.field = d.get? record.field) :
    (∃ failure, record.edit first c = .error failure ∧ record.edit first d = .error failure) ∨
      ∃ v, record.edit first c = .ok (c.set record.field v) ∧
        record.edit first d = .ok (d.set record.field v) := by
  have list : ∀ (listing : Listing) (container name value : String),
      c.get? listing.field = d.get? listing.field →
      (∃ failure, c.edit listing container name value = .error failure ∧
          d.edit listing container name value = .error failure) ∨
        ∃ v, c.edit listing container name value = .ok (c.set listing.field v) ∧
          d.edit listing container name value = .ok (d.set listing.field v) := by
    intro listing container name value hget
    have harray : c.array? listing.field = d.array? listing.field := by rw [array?, array?, hget]
    rw [Container.edit, Container.edit, harray]
    cases d.array? listing.field with
    | none => exact .inl ⟨_, rfl, rfl⟩
    | some items => exact .inr ⟨_, rfl, rfl⟩
  cases record with
  | image container mode value =>
      rw [Record.edit, Record.edit]
      cases mode.revise container value first with
      | error failure => exact .inl ⟨failure, rfl, rfl⟩
      | ok image => exact .inr ⟨.string image, rfl, rfl⟩
  | environment container name value => exact list .environment container name value h
  | label container key value =>
      have hobject : c.object? labelsField = d.object? labelsField := by
        rw [object?, object?]
        rw [show c.get? labelsField = d.get? labelsField from h]
      rw [Record.edit, Record.edit, editLabel, editLabel, hobject]
      cases d.object? labelsField with
      | none => exact .inl ⟨_, rfl, rfl⟩
      | some labels => exact .inr ⟨_, rfl, rfl⟩
  | secret container name source => exact list .secrets container name source h

/-! ## A row of edits -/

variable {first : Option String} {c c' c'' : Container} {records : List Record}

/-- Edits leave one container only. -/
theorem Applied.unique (h : Applied first c records c') (h' : Applied first c records c'') :
    c' = c'' := by
  induction h generalizing c'' with
  | nil => exact h'.eq_of_nil.symm
  | @snoc records record d d' hd hedit ih =>
      generalize hrow : records ++ [record] = row at h'
      cases h' with
      | nil => simp at hrow
      | @snoc others other e _ he hedit' =>
          obtain ⟨rfl, hrecord⟩ := List.append_inj' hrow rfl
          cases hrecord
          rw [ih he] at hedit
          exact Except.ok.inj (hedit.symm.trans hedit')

/-- What a field becomes, it becomes by the records of this field alone. -/
theorem Applied.only (h : Applied first c records c') (field : String) :
    ∃ d, Applied first c (records.filter fun record => record.field = field) d ∧
      d.get? field = c'.get? field := by
  induction h with
  | nil => exact ⟨c, .nil, rfl⟩
  | @snoc records record c' c'' _ hedit ih =>
      obtain ⟨d, hd, hget⟩ := ih
      rw [List.filter_append]
      by_cases hfield : record.field = field
      · have hone : [record].filter (fun record => record.field = field) = [record] := by
          simp [hfield]
        rw [hone]
        subst hfield
        have hlocal := @edit_local record first d c' hget
        rcases hlocal with ⟨failure, -, hfail⟩ | ⟨v, hv, hv'⟩
        · rw [hedit] at hfail
          cases hfail
        · rw [hedit] at hv'
          cases hv'
          refine ⟨d.set record.field v, hd.snoc hv, ?_⟩
          rw [get?_set_self, get?_set_self]
      · have hnone : [record].filter (fun record => record.field = field) = [] := by simp [hfield]
        obtain ⟨v, rfl⟩ := edit_eq_set hedit
        rw [hnone, List.append_nil, get?_set_of_ne c' v (Ne.symm hfield)]
        exact ⟨d, hd, hget⟩

/-- A container after edits is the old one, overlaid with one value for each record. -/
theorem Applied.exists_writes (h : Applied first c records c') :
    ∃ writes : Members, Keyed.keys writes = records.map Record.field ∧
      c'.fields = Keyed.overlay writes c.fields := by
  induction h with
  | nil => exact ⟨[], rfl, (Keyed.overlay_nil c.fields).symm⟩
  | @snoc records record c' c'' _ hedit ih =>
      obtain ⟨writes, hkeys, hfields⟩ := ih
      obtain ⟨v, rfl⟩ := edit_eq_set hedit
      refine ⟨writes ++ [(record.field, v)], ?_, ?_⟩
      · rw [Keyed.keys, List.map_append, List.map_append, ← Keyed.keys, hkeys]
        rfl
      · rw [Container.set, hfields]
        exact Keyed.insert_overlay writes (record.field, v) c.fields

/-- The value that is written last into a field is the one that stands there. -/
theorem lastValue?_writes {writes : Members} (hkeys : Keyed.keys writes = records.map Record.field)
    (hfields : c'.fields = Keyed.overlay writes c.fields) (field : String) :
    Keyed.lastValue? writes field
      = if field ∈ records.map Record.field then c'.get? field else none := by
  split
  · next hmem =>
    obtain ⟨v, hv⟩ := Option.isSome_iff_exists.1 (Keyed.lastValue?_isSome_iff.2 (hkeys ▸ hmem))
    rw [Container.get?, hfields, Keyed.lookup_overlay, hv, Option.some_or]
  · next hmem =>
    have hnone : ¬ (Keyed.lastValue? writes field).isSome := by
      rwa [Keyed.lastValue?_isSome_iff, hkeys]
    exact Option.not_isSome_iff_eq_none.1 hnone

end TaskRevision
