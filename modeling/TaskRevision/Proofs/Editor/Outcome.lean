import TaskRevision.Proofs.Editor.History
/-!
# What decides whether a record can be applied

The editor decides about a record by the containers as they stand and by the index as it stands.  All
the same, whether a record is applied, and with which failure it is refused if not, was settled when
the editor was made: it can be read off the original containers (`Record.verdict`).  No edit opens or
closes the way for another one, since an edit leaves a list a list and an object an object, and since
the index keeps the first images.

* `SameShape` — two containers of which the same fields can be edited;
* `History.outcome` — an attempt ends as the verdict on the original containers says;
* `decided_run` — the whole statement, for one record and for rows of records, after any calls.
-/

namespace TaskRevision

open Json (Value Members)
open Update (Record Mode)
open Container

/-! ## Shapes -/

/-- Of both containers the same collections can be edited. -/
structure SameShape (c c' : Container) : Prop where
  /-- The lists. -/
  lists : ∀ listing : Listing, (c'.array? listing.field).isSome = (c.array? listing.field).isSome
  /-- The docker labels. -/
  labels : (c'.object? labelsField).isSome = (c.object? labelsField).isSome

theorem SameShape.refl (c : Container) : SameShape c c := ⟨fun _ => rfl, rfl⟩

theorem SameShape.trans {c d e : Container} (h : SameShape c d) (h' : SameShape d e) :
    SameShape c e :=
  ⟨fun listing => (h'.lists listing).trans (h.lists listing), h'.labels.trans h.labels⟩

theorem sameShape_set_list {c : Container} {listing : Listing} {items : List Value}
    (h : c.array? listing.field = some items) (items' : List Value) :
    SameShape c (c.set listing.field (.array items')) := by
  refine ⟨fun other => ?_, ?_⟩
  · by_cases hother : other = listing
    · rw [hother, array?_set_self, h]
      rfl
    · rw [array?_set_of_ne c _ (Listing.field_ne hother)]
  · rw [object?_set_of_ne c _ listing.field_ne_labelsField.symm]

theorem sameShape_set_labels {c : Container} {labels : Members}
    (h : c.object? labelsField = some labels) (labels' : Members) :
    SameShape c (c.set labelsField (.object labels')) := by
  refine ⟨fun listing => ?_, ?_⟩
  · rw [array?_set_of_ne c _ listing.field_ne_labelsField]
  · rw [object?_set_self, h]
    rfl

theorem sameShape_setImage (c : Container) (image : String) : SameShape c (c.setImage image) := by
  refine ⟨fun listing => ?_, ?_⟩
  · rw [setImage, array?_set_of_ne c _ listing.field_ne_imageField]
  · rw [setImage, object?_set_of_ne c _ (by decide)]

/-- An edit keeps the shape. -/
theorem sameShape_of_edit {record : Record} {first : Option String} {c c' : Container}
    (h : record.edit first c = .ok c') : SameShape c c' := by
  cases record with
  | image container mode value =>
      obtain ⟨image, -, rfl⟩ := editImage_eq_ok_iff.1 h
      exact sameShape_setImage c image
  | environment container name value =>
      obtain ⟨items, hitems, rfl⟩ := edit_list_eq_ok_iff.1 h
      exact sameShape_set_list hitems _
  | label container key value =>
      obtain ⟨labels, hlabels, rfl⟩ := editLabel_eq_ok_iff.1 h
      exact sameShape_set_labels hlabels _
  | secret container name source =>
      obtain ⟨items, hitems, rfl⟩ := edit_list_eq_ok_iff.1 h
      exact sameShape_set_list hitems _

theorem Applied.sameShape {first : Option String} {c c' : Container} {records : List Record}
    (h : Applied first c records c') : SameShape c c' := by
  induction h with
  | nil => exact .refl c
  | snoc _ hedit ih => exact ih.trans (sameShape_of_edit hedit)

/-! ## Verdicts -/

/-- How an edit ends. -/
def Update.Record.editOutcome (record : Record) (first : Option String) (c : Container) :
    Except Failure Unit :=
  (record.edit first c).map fun _ => ()

theorem outcome_edit (c : Container) (listing : Listing) (container name value : String) :
    (c.edit listing container name value).map (fun _ => ())
      = if (c.array? listing.field).isSome then .ok ()
        else .error (.malformed (.notArray container listing.field)) := by
  rw [Container.edit]
  cases c.array? listing.field <;> rfl

theorem outcome_editLabel (c : Container) (container key value : String) :
    (c.editLabel container key value).map (fun _ => ())
      = if (c.object? labelsField).isSome then .ok ()
        else .error (.malformed (.notObject container labelsField)) := by
  rw [editLabel]
  cases c.object? labelsField <;> rfl

theorem outcome_image (c : Container) (first : Option String) (container : String) (mode : Mode)
    (value : String) : (Record.image container mode value).editOutcome first c
      = (mode.revise container value first).map fun _ => () := by
  rw [Record.editOutcome, Record.edit]
  cases mode.revise container value first <;> rfl

/-- The outcome of an edit depends on the shape of the container only. -/
theorem editOutcome_eq {c c' : Container} (h : SameShape c c') (record : Record)
    (first : Option String) : record.editOutcome first c' = record.editOutcome first c := by
  cases record with
  | image container mode value => rw [outcome_image, outcome_image]
  | environment container name value =>
      simp only [Record.editOutcome, Record.edit, outcome_edit, h.lists]
  | label container key value =>
      simp only [Record.editOutcome, Record.edit, outcome_editLabel, h.labels]
  | secret container name source =>
      simp only [Record.editOutcome, Record.edit, outcome_edit, h.lists]

/-- What the original containers say of a record: that it names none of them, or how the edit of the
one that it names ends. -/
def Update.Record.verdict (record : Record) (original : List Container) : Except Failure Unit :=
  match original.find? fun o => o.name? = some record.container with
  | none => .error (.unknownContainer record.container record.kind)
  | some o => record.editOutcome o.image? o

/-- The container does not allow the edit: an image is to be changed in part where there is none, or
the collection to be written is something else. -/
def Update.Record.Unfit (c : Container) : Record → Prop
  | .image _ mode _ => mode ≠ .imageAndTag ∧ c.image? = none
  | .environment .. => ∃ v, c.get? Listing.environment.field = some v ∧ v ≠ .null ∧
      ∀ items, v ≠ .array items
  | .label .. => ∃ v, c.get? labelsField = some v ∧ v ≠ .null ∧ ∀ members, v ≠ .object members
  | .secret .. => ∃ v, c.get? Listing.secrets.field = some v ∧ v ≠ .null ∧ ∀ items, v ≠ .array items

/-- An image can be changed as a whole, and in part where there is one. -/
theorem revise_cases (mode : Mode) (container value : String) (image : Option String) :
    (¬ (mode ≠ .imageAndTag ∧ image = none) ∧
        (mode.revise container value image).map (fun _ => ()) = .ok ()) ∨
      ((mode ≠ .imageAndTag ∧ image = none) ∧ ∃ problem,
        (mode.revise container value image).map (fun _ => ()) = .error (.malformed problem)) := by
  cases image with
  | some image =>
      refine .inl ⟨by simp, ?_⟩
      cases mode <;> rfl
  | none =>
      by_cases hmode : mode = .imageAndTag
      · subst hmode
        exact .inl ⟨by simp, rfl⟩
      · refine .inr ⟨⟨hmode, rfl⟩, .noImage container mode, ?_⟩
        cases mode with
        | imageAndTag => exact absurd rfl hmode
        | image => rfl
        | tag => rfl

/-- An edit ends well on a container that allows it, and is refused as not fitting the document on one
that does not. -/
theorem editOutcome_cases (record : Record) (c : Container) :
    (¬ record.Unfit c ∧ record.editOutcome c.image? c = .ok ()) ∨
      (record.Unfit c ∧ ∃ problem, record.editOutcome c.image? c = .error (.malformed problem)) := by
  have list : ∀ (listing : Listing) (container name value : String),
      (c.array? listing.field ≠ none ∧
          (c.edit listing container name value).map (fun _ => ()) = .ok ()) ∨
        (c.array? listing.field = none ∧ ∃ problem,
          (c.edit listing container name value).map (fun _ => ()) = .error (.malformed problem)) := by
    intro listing container name value
    rw [outcome_edit]
    cases c.array? listing.field with
    | none => exact .inr ⟨rfl, _, rfl⟩
    | some items => exact .inl ⟨Option.some_ne_none items, rfl⟩
  cases record with
  | image container mode value =>
      rw [outcome_image]
      exact revise_cases mode container value c.image?
  | environment container name value =>
      rw [Record.Unfit, ← array?_eq_none_iff]
      exact list .environment container name value
  | label container key value =>
      rw [Record.editOutcome, Record.edit, Record.Unfit, ← object?_eq_none_iff, outcome_editLabel]
      cases c.object? labelsField with
      | none => exact .inr ⟨rfl, _, rfl⟩
      | some labels => exact .inl ⟨Option.some_ne_none labels, rfl⟩
  | secret container name source =>
      rw [Record.Unfit, ← array?_eq_none_iff]
      exact list .secrets container name source

theorem Container.WellNamed.find?_eq {original : List Container} (h : WellNamed original)
    {o : Container} {name : String} (ho : o ∈ original) (hname : o.name? = some name) :
    (original.find? fun o => o.name? = some name) = some o := by
  cases hfind : original.find? fun o => o.name? = some name with
  | none =>
      have := List.find?_eq_none.1 hfind o ho
      simp [hname] at this
  | some found =>
      have hfound : found.name? = some name := by simpa using List.find?_some hfind
      obtain ⟨i, hi⟩ := List.mem_iff_getElem?.1 ho
      obtain ⟨j, hj⟩ := List.mem_iff_getElem?.1 (List.mem_of_find?_eq_some hfind)
      obtain rfl := h.position_unique hi hj (hname.trans hfound.symm)
      rw [← hi, ← hj]

theorem Container.WellNamed.eq_of_name? {original : List Container} (h : WellNamed original)
    {o o' : Container} {name : String} (ho : o ∈ original) (hname : o.name? = some name)
    (ho' : o' ∈ original) (hname' : o'.name? = some name) : o = o' :=
  Option.some.inj ((h.find?_eq ho hname).symm.trans (h.find?_eq ho' hname'))

theorem verdict_of_not_named {original : List Container} {record : Record}
    (h : ∀ o ∈ original, o.name? ≠ some record.container) :
    record.verdict original = .error (.unknownContainer record.container record.kind) := by
  have hfind : (original.find? fun o => o.name? = some record.container) = none :=
    List.find?_eq_none.2 fun o ho => by simpa using h o ho
  rw [Record.verdict, hfind]

/-- All that a verdict can be, in terms of the containers. -/
theorem verdict_cases {original : List Container} (h : WellNamed original) (record : Record) :
    ((∀ o ∈ original, o.name? ≠ some record.container) ∧
        record.verdict original = .error (.unknownContainer record.container record.kind)) ∨
      ∃ o ∈ original, o.name? = some record.container ∧
        ((¬ record.Unfit o ∧ record.verdict original = .ok ()) ∨
          (record.Unfit o ∧ ∃ problem, record.verdict original = .error (.malformed problem))) := by
  by_cases hnamed : ∃ o ∈ original, o.name? = some record.container
  · obtain ⟨o, ho, hname⟩ := hnamed
    have hverdict : record.verdict original = record.editOutcome o.image? o := by
      rw [Record.verdict, h.find?_eq ho hname]
    exact .inr ⟨o, ho, hname, hverdict ▸ editOutcome_cases record o⟩
  · have hnone : ∀ o ∈ original, o.name? ≠ some record.container :=
      fun o ho hname => hnamed ⟨o, ho, hname⟩
    exact .inl ⟨hnone, verdict_of_not_named hnone⟩

theorem verdict_eq_unknown_iff {original : List Container} (h : WellNamed original)
    (record : Record) :
    record.verdict original = .error (.unknownContainer record.container record.kind) ↔
      ∀ o ∈ original, o.name? ≠ some record.container := by
  refine ⟨fun hunknown => ?_, verdict_of_not_named⟩
  rcases verdict_cases h record with ⟨hnone, -⟩ | ⟨o, -, -, ⟨-, hok⟩ | ⟨-, problem, herror⟩⟩
  · exact hnone
  · rw [hok] at hunknown
    cases hunknown
  · rw [herror] at hunknown
    cases hunknown

theorem verdict_malformed_iff {original : List Container} (h : WellNamed original)
    (record : Record) :
    (∃ problem, record.verdict original = .error (.malformed problem)) ↔
      ∃ o ∈ original, o.name? = some record.container ∧ record.Unfit o := by
  rcases verdict_cases h record with ⟨hnone, heq⟩ | ⟨o, ho, hname, ⟨hfit, hok⟩ | ⟨hunfit, hproblem⟩⟩
  · constructor
    · rintro ⟨problem, hproblem⟩
      rw [heq] at hproblem
      cases hproblem
    · rintro ⟨o, ho, hname, -⟩
      exact absurd hname (hnone o ho)
  · constructor
    · rintro ⟨problem, hproblem⟩
      rw [hok] at hproblem
      cases hproblem
    · rintro ⟨o', ho', hname', hunfit⟩
      exact absurd (h.eq_of_name? ho' hname' ho hname ▸ hunfit) hfit
  · exact ⟨fun _ => ⟨o, ho, hname, hunfit⟩, fun _ => hproblem⟩

theorem verdict_eq_ok_iff {original : List Container} (h : WellNamed original) (record : Record) :
    record.verdict original = .ok () ↔
      ∃ o ∈ original, o.name? = some record.container ∧ ¬ record.Unfit o := by
  rcases verdict_cases h record with
    ⟨hnone, heq⟩ | ⟨o, ho, hname, ⟨hfit, hok⟩ | ⟨hunfit, problem, herror⟩⟩
  · constructor
    · intro hok
      rw [heq] at hok
      cases hok
    · rintro ⟨o, ho, hname, -⟩
      exact absurd hname (hnone o ho)
  · exact ⟨fun _ => ⟨o, ho, hname, hfit⟩, fun _ => hok⟩
  · constructor
    · intro hok
      rw [herror] at hok
      cases hok
    · rintro ⟨o', ho', hname', hfit⟩
      exact absurd hunfit (h.eq_of_name? ho' hname' ho hname ▸ hfit)

namespace Editor

variable {original : List Container} {done : List Record} {editor : Editor}

/-- **An attempt ends as the original containers say**, whatever the editor has gone through. -/
theorem History.outcome (h : History original done editor) (record : Record) :
    (editor.attempt record).2 = record.verdict original := by
  rcases h.attempt_cases record with ⟨hnone, heq⟩ | ⟨i, o, c, ho, hname, hc, hcases⟩
  · rw [heq, verdict_of_not_named hnone]
  · have hshape := (h.applied ho hc).sameShape
    rw [Record.verdict, h.wellNamed.find?_eq (List.mem_of_getElem? ho) hname]
    refine Eq.trans ?_ (editOutcome_eq hshape record o.image?)
    rcases hcases with ⟨failure, hedit, heq⟩ | ⟨c', hedit, heq⟩
    · rw [heq, Record.editOutcome, hedit]
      rfl
    · rw [heq, Record.editOutcome, hedit]
      rfl

/-! ## Rows of records -/

/-- The row goes on past records that can be applied. -/
theorem History.applyAll_append (h : History original done editor) {before : List Record}
    (hbefore : ∀ record ∈ before, record.verdict original = .ok ()) (after : List Record) :
    editor.applyAll (before ++ after)
      = (((editor.run (before.map .apply)).applyAll after).1,
          ((editor.run (before.map .apply)).applyAll after).2.map (· + before.length)) := by
  induction before generalizing done editor with
  | nil =>
      show editor.applyAll after = ((editor.applyAll after).1, (editor.applyAll after).2.map (· + 0))
      cases hafter : editor.applyAll after with
      | mk last outcome => cases outcome <;> rfl
  | cons record before ih =>
      rw [List.forall_mem_cons] at hbefore
      have hok := (h.outcome record).trans hbefore.1
      have hrest := ih (h.attempt_ok hok) hbefore.2
      cases hattempt : editor.attempt record with
      | mk next outcome =>
          rw [hattempt] at hok hrest
          simp only at hok hrest
          subst hok
          rw [run_apply_cons, hattempt, List.cons_append, Editor.applyAll, hattempt]
          simp only [hrest, List.length_cons]
          cases ((next.run (before.map .apply)).applyAll after).2 <;> simp [Except.map, Nat.add_assoc]

/-- The row ends at a record that cannot be applied. -/
theorem History.applyAll_cons_error (h : History original done editor) {record : Record}
    {failure : Failure} (hfail : record.verdict original = .error failure) (after : List Record) :
    editor.applyAll (record :: after) = (editor, .error failure) := by
  have houtcome := (h.outcome record).trans hfail
  have hsame := h.attempt_error houtcome
  cases hattempt : editor.attempt record with
  | mk next outcome =>
      rw [hattempt] at houtcome hsame
      simp only at houtcome hsame
      rw [Editor.applyAll, hattempt, houtcome, hsame]

/-! ## The theorem -/

/-- What becomes of records that are given to the editor is decided by the containers `original`. -/
structure Decided (original : List Container) (editor : Editor) : Prop where
  /-- An attempt ends as the original containers say. -/
  outcome : ∀ record : Record, (editor.attempt record).2 = record.verdict original
  /-- A record fails as naming no container exactly if no original container has that name. -/
  unknown : ∀ record : Record,
    (editor.attempt record).2 = .error (.unknownContainer record.container record.kind) ↔
      ∀ o ∈ original, o.name? ≠ some record.container
  /-- A record fails as not fitting the document exactly if the original container does not allow it. -/
  malformed : ∀ record : Record,
    (∃ problem, (editor.attempt record).2 = .error (.malformed problem)) ↔
      ∃ o ∈ original, o.name? = some record.container ∧ record.Unfit o
  /-- A record is applied in all other cases. -/
  applied : ∀ record : Record, (editor.attempt record).2 = .ok () ↔
    ∃ o ∈ original, o.name? = some record.container ∧ ¬ record.Unfit o
  /-- A failing record leaves containers and index as they are. -/
  atomic : ∀ (record : Record) (failure : Failure), (editor.attempt record).2 = .error failure →
    (editor.attempt record).1 = editor
  /-- A row of records that can all be applied is applied. -/
  all : ∀ records : List Record, (∀ record ∈ records, record.verdict original = .ok ()) →
    editor.applyAll records = (editor.run (records.map .apply), .ok records.length)
  /-- A row of records fails with its first record that cannot be applied, and leaves the edits of the
  records before. -/
  first : ∀ (before : List Record) (record : Record) (after : List Record) (failure : Failure),
    (∀ other ∈ before, other.verdict original = .ok ()) → record.verdict original = .error failure →
    editor.applyAll (before ++ record :: after) = (editor.run (before.map .apply), .error failure)

/-- An editor with a history is decided by the containers that it was made of. -/
theorem History.decided (h : History original done editor) : Decided original editor where
  outcome := h.outcome
  unknown record := by rw [h.outcome, verdict_eq_unknown_iff h.wellNamed]
  malformed record := by rw [h.outcome, verdict_malformed_iff h.wellNamed]
  applied record := by rw [h.outcome, verdict_eq_ok_iff h.wellNamed]
  atomic record failure hfail := h.attempt_error hfail
  all records hall := by
    have happend := h.applyAll_append hall []
    rw [List.append_nil] at happend
    rw [happend]
    simp [Editor.applyAll, Except.map]
  first before record after failure hbefore hfail := by
    obtain ⟨more, hmore⟩ := h.run (before.map .apply)
    rw [h.applyAll_append hbefore, hmore.applyAll_cons_error hfail]
    rfl

/-- **Failures are atomic and do not depend on what was done before.**  After any sequence of calls,
failed ones among them, what becomes of a record, or of a row of records, is decided by the containers
that the editor was made of. -/
theorem decided_run {start : Editor} (h : ofContainers original = .ok start) (calls : List Call) :
    (start.run calls).Decided original := by
  obtain ⟨done, hdone⟩ := (History.of_ofContainers h).run calls
  exact hdone.decided

/-- An image that is set as a whole does not make room for a later edit of its tag. -/
theorem decided_run_image_set :
    let web : Container := ⟨[("name", .string "web"), ("dockerLabels", .null), ("secrets", .bool true)]⟩
    let start : Editor := ⟨[web], ⟨[("web", ⟨0, none, [], [], []⟩)]⟩⟩
    ofContainers [web] = .ok start ∧
      (start.run [.apply (.image "web" .imageAndTag "app:1"), .apply (.secret "web" "S" "arn"),
        .applyAll [.label "web" "k" "v", .image "web" .tag "2"]]).Decided [web] :=
  ⟨rfl, decided_run rfl _⟩

end Editor

end TaskRevision
