import TaskRevision.Proofs.Editor.Plain
import TaskRevision.Proofs.Index.Build
/-!
# What an editor has gone through

An editor that was made of some containers and then used, in whatever way, is described by the row of
the records that it has applied (`Editor.History`): each of its containers is the original one after
the plain edits of the records that name it, and its index holds for each container the entry that
fits the container as it stands, with the first image.

* `Applied` — a container after plain edits that all succeeded;
* `History.of_ofContainers` — a fresh editor has applied nothing;
* `History.attempt_cases` — **all that an attempt can do**, in terms of plain edits;
* `History.attempt_ok`, `History.attempt_error` — one more record, or no change at all;
* `History.run` — every sequence of calls, with failures in any place, leaves a history behind.
-/

namespace TaskRevision

open Update (Record)
open Container (WellNamed)

/-! ## Containers -/

/-- The container `c` has become another one by edits that all succeeded, in order. -/
inductive Applied (first : Option String) (c : Container) : List Record → Container → Prop
  /-- No edits. -/
  | nil : Applied first c [] c
  /-- One more edit behind the others. -/
  | snoc {records : List Record} {record : Record} {c' c'' : Container} :
      Applied first c records c' → record.edit first c' = .ok c'' →
      Applied first c (records ++ [record]) c''

theorem Update.Record.field_ne_nameKey (record : Record) : Container.nameKey ≠ record.field := by
  cases record with
  | image => exact (by decide : Container.nameKey ≠ Container.imageField)
  | environment => exact (by decide : Container.nameKey ≠ Container.Listing.environment.field)
  | label => exact (by decide : Container.nameKey ≠ Container.labelsField)
  | secret => exact (by decide : Container.nameKey ≠ Container.Listing.secrets.field)

theorem name?_of_edit {record : Record} {first : Option String} {c c' : Container}
    (h : record.edit first c = .ok c') : c'.name? = c.name? := by
  obtain ⟨v, rfl⟩ := edit_eq_set h
  rw [Container.name?, Container.name?, Container.get?_set_of_ne c v record.field_ne_nameKey]

theorem Applied.name? {first : Option String} {c c' : Container} {records : List Record}
    (h : Applied first c records c') : c'.name? = c.name? := by
  induction h with
  | nil => rfl
  | snoc _ hedit ih => rw [name?_of_edit hedit, ih]

/-! ## Editors -/

/-- The records that name a container. -/
def targeting (name : Option String) (records : List Record) : List Record :=
  records.filter fun record => some record.container = name

theorem targeting_append (name : Option String) (xs ys : List Record) :
    targeting name (xs ++ ys) = targeting name xs ++ targeting name ys :=
  List.filter_append ..

namespace Editor

/-- The editor was made of the containers `original` and has applied the records `done`. -/
structure History (original : List Container) (done : List Record) (editor : Editor) : Prop where
  /-- The original containers could be indexed. -/
  wellNamed : WellNamed original
  /-- There are as many containers as at first. -/
  length : editor.containers.length = original.length
  /-- Each container has gone through the records that name it. -/
  applied : ∀ {i : Nat} {o c : Container}, original[i]? = some o → editor.containers[i]? = some c →
    Applied o.image? o (targeting o.name? done) c
  /-- The index has an entry for each container, in order. -/
  keys : Keyed.keys editor.index.entries = original.map fun o => o.name?.getD ""
  /-- The entries fit the containers as they stand, and hold the first images. -/
  entry : ∀ {name : String} {entry : Entry}, editor.index.get? name = some entry ↔
    ∃ i o c, original[i]? = some o ∧ o.name? = some name ∧ editor.containers[i]? = some c ∧
      entry = .tracking i o.image? c

/-- A fresh editor has applied nothing. -/
theorem History.of_ofContainers {original : List Container} {editor : Editor}
    (h : ofContainers original = .ok editor) : History original [] editor := by
  cases hbuild : Index.build original with
  | error failure => rw [ofContainers, hbuild] at h; cases h
  | ok index =>
      rw [ofContainers, hbuild] at h
      cases h
      obtain ⟨hnamed, hentries⟩ := Index.build_eq_ok_iff.1 hbuild
      refine ⟨hnamed, rfl, fun ho hc => ?_, ?_, ?_⟩
      · cases ho.symm.trans hc
        exact .nil
      · rw [hentries, Index.keys_entriesFrom]
      · intro name entry
        rw [Index.get?_of_build hbuild]
        constructor
        · rintro ⟨i, c, hc, hname, rfl⟩
          exact ⟨i, c, c, hc, hname, hc, rfl⟩
        · rintro ⟨i, o, c, ho, hname, hc, rfl⟩
          cases ho.symm.trans hc
          exact ⟨i, o, ho, hname, rfl⟩

variable {original : List Container} {done : List Record} {editor : Editor}

theorem History.exists_current (h : History original done editor) {i : Nat} {o : Container}
    (ho : original[i]? = some o) : ∃ c, editor.containers[i]? = some c := by
  obtain ⟨hi, -⟩ := List.getElem?_eq_some_iff.1 ho
  exact ⟨_, List.getElem?_eq_getElem (h.length ▸ hi)⟩

theorem History.exists_original (h : History original done editor) {i : Nat} {c : Container}
    (hc : editor.containers[i]? = some c) : ∃ o, original[i]? = some o := by
  obtain ⟨hi, -⟩ := List.getElem?_eq_some_iff.1 hc
  exact ⟨_, List.getElem?_eq_getElem (h.length ▸ hi)⟩

theorem History.name? (h : History original done editor) {i : Nat} {o c : Container}
    (ho : original[i]? = some o) (hc : editor.containers[i]? = some c) : c.name? = o.name? :=
  (h.applied ho hc).name?

theorem History.map_name? (h : History original done editor) :
    editor.containers.map Container.name? = original.map Container.name? := by
  refine List.ext_getElem? fun i => ?_
  rw [List.getElem?_map, List.getElem?_map]
  cases ho : original[i]? with
  | none =>
      rw [List.getElem?_eq_none_iff, ← h.length, ← List.getElem?_eq_none_iff] at ho
      rw [ho]
  | some o =>
      obtain ⟨c, hc⟩ := h.exists_current ho
      rw [hc, Option.map_some, Option.map_some, h.name? ho hc]

/-- **All that an attempt can do.**  The record names no container and is refused; or it names one,
and does there what the plain edit does, the editor being left as it was if that fails. -/
theorem History.attempt_cases (h : History original done editor) (record : Record) :
    ((∀ o ∈ original, o.name? ≠ some record.container) ∧
      editor.attempt record = (editor, .error (.unknownContainer record.container record.kind))) ∨
    ∃ i o c, original[i]? = some o ∧ o.name? = some record.container ∧
      editor.containers[i]? = some c ∧
      ((∃ failure, record.edit o.image? c = .error failure ∧
          editor.attempt record = (editor, .error failure)) ∨
        ∃ c', record.edit o.image? c = .ok c' ∧
          editor.attempt record = (⟨editor.containers.set i c',
            editor.index.set record.container (.tracking i o.image? c')⟩, .ok ())) := by
  cases hget : editor.index.get? record.container with
  | none =>
      refine .inl ⟨fun o ho hname => ?_, ?_⟩
      · obtain ⟨i, hi⟩ := List.mem_iff_getElem?.1 ho
        obtain ⟨c, hc⟩ := h.exists_current hi
        rw [h.entry.2 ⟨i, o, c, hi, hname, hc, rfl⟩] at hget
        cases hget
      · simp only [attempt, Index.resolve, hget]
  | some entry =>
      obtain ⟨i, o, c, ho, hname, hc, rfl⟩ := h.entry.1 hget
      have hposition : (Entry.tracking i o.image? c).position = i := rfl
      refine .inr ⟨i, o, c, ho, hname, hc, ?_⟩
      simp only [attempt, Index.resolve, hget, hposition, hc, revise_tracking]
      cases hedit : record.edit o.image? c with
      | error failure =>
          -- container and entry are written back as they were
          obtain ⟨hi, rfl⟩ := List.getElem?_eq_some_iff.1 hc
          refine .inl ⟨failure, rfl, ?_⟩
          rw [List.set_getElem_self hi, Index.set_of_get? hget]
      | ok c' => exact .inr ⟨c', rfl, rfl⟩

/-- A failing record leaves no trace. -/
theorem History.attempt_error (h : History original done editor) {record : Record}
    {failure : Failure} (hfail : (editor.attempt record).2 = .error failure) :
    (editor.attempt record).1 = editor := by
  rcases h.attempt_cases record with ⟨-, heq⟩ | ⟨i, o, c, -, -, -, ⟨_, -, heq⟩ | ⟨c', -, heq⟩⟩
  · rw [heq]
  · rw [heq]
  · rw [heq] at hfail
    cases hfail

section

variable {record : Record} {i : Nat} {o c : Container} (h : History original done editor)
  (ho : original[i]? = some o) (hname : o.name? = some record.container)
include h ho hname

/-- What an edit writes in one place does not show in the place of another container. -/
theorem History.elsewhere {j : Nat} {o' : Container} (ho' : original[j]? = some o') (hij : i ≠ j)
    (c' : Container) : o'.name? ≠ some record.container ∧
      (editor.containers.set i c')[j]? = editor.containers[j]? := by
  refine ⟨fun hsame => hij (h.wellNamed.position_unique ho ho' (hname.trans hsame.symm)), ?_⟩
  exact List.getElem?_set_ne hij

/-- One more edit of a container: each container has gone through the records that name it. -/
theorem History.applied_set (hc : editor.containers[i]? = some c) {c' : Container}
    (hedit : record.edit o.image? c = .ok c') {j : Nat} {o' d : Container}
    (ho' : original[j]? = some o') (hd : (editor.containers.set i c')[j]? = some d) :
    Applied o'.image? o' (targeting o'.name? (done ++ [record])) d := by
  rw [targeting_append]
  by_cases hij : i = j
  · subst hij
    cases ho.symm.trans ho'
    have here : (editor.containers.set i c')[i]? = some c' :=
      List.getElem?_set_self (List.getElem?_eq_some_iff.1 hc).1
    cases here.symm.trans hd
    have htarget : targeting o.name? [record] = [record] := by simp [targeting, hname]
    rw [htarget]
    exact (h.applied ho hc).snoc hedit
  · obtain ⟨hother, hsame⟩ := h.elsewhere ho hname ho' hij c'
    have htarget : targeting o'.name? [record] = [] := by simp [targeting, Ne.symm hother]
    rw [htarget, List.append_nil]
    exact h.applied ho' (hsame ▸ hd)

/-- One more edit of a container: the entries fit the containers. -/
theorem History.entry_set (hc : editor.containers[i]? = some c) (c' : Container) {name : String}
    {entry : Entry} :
    (editor.index.set record.container (.tracking i o.image? c')).get? name = some entry ↔
      ∃ j o' d, original[j]? = some o' ∧ o'.name? = some name ∧
        (editor.containers.set i c')[j]? = some d ∧ entry = .tracking j o'.image? d := by
  have here : (editor.containers.set i c')[i]? = some c' :=
    List.getElem?_set_self (List.getElem?_eq_some_iff.1 hc).1
  by_cases hsame : name = record.container
  · subst hsame
    rw [Index.get?_set_self, Option.some.injEq]
    constructor
    · rintro rfl
      exact ⟨i, o, c', ho, hname, here, rfl⟩
    · rintro ⟨j, o', d, ho', hname', hd, rfl⟩
      obtain rfl := h.wellNamed.position_unique ho ho' (hname.trans hname'.symm)
      cases ho.symm.trans ho'
      cases here.symm.trans hd
      rfl
  · have hplace : ∀ {j : Nat} {o' : Container}, original[j]? = some o' → o'.name? = some name →
        (editor.containers.set i c')[j]? = editor.containers[j]? := by
      intro j o' ho' hname'
      refine (h.elsewhere ho hname ho' (fun hij => ?_) c').2
      subst hij
      cases ho.symm.trans ho'
      exact hsame (Option.some.inj (hname'.symm.trans hname))
    rw [Index.get?_set_of_ne _ _ hsame, h.entry]
    constructor
    · rintro ⟨j, o', d, ho', hname', hd, rfl⟩
      exact ⟨j, o', d, ho', hname', (hplace ho' hname').trans hd, rfl⟩
    · rintro ⟨j, o', d, ho', hname', hd, rfl⟩
      exact ⟨j, o', d, ho', hname', (hplace ho' hname').symm.trans hd, rfl⟩

theorem History.keys_set (hc : editor.containers[i]? = some c) (entry : Entry) :
    Keyed.keys (editor.index.set record.container entry).entries
      = original.map fun o => o.name?.getD "" := by
  have hmem : record.container ∈ Keyed.keys editor.index.entries := by
    rw [← Keyed.lookup_isSome_iff]
    exact Option.isSome_of_eq_some (h.entry.2 ⟨i, o, c, ho, hname, hc, rfl⟩)
  exact (Keyed.keys_insert_of_mem entry hmem).trans h.keys

end

/-- A record that is applied joins the history. -/
theorem History.attempt_ok (h : History original done editor) {record : Record}
    (hok : (editor.attempt record).2 = .ok ()) :
    History original (done ++ [record]) (editor.attempt record).1 := by
  rcases h.attempt_cases record with ⟨-, heq⟩ | ⟨i, o, c, ho, hname, hc, hcases⟩
  · rw [heq] at hok
    cases hok
  rcases hcases with ⟨failure, -, heq⟩ | ⟨c', hedit, heq⟩
  · rw [heq] at hok
    cases hok
  rw [heq]
  exact {
    wellNamed := h.wellNamed
    length := (List.length_set ..).trans h.length
    applied := h.applied_set ho hname hc hedit
    keys := h.keys_set ho hname hc _
    entry := h.entry_set ho hname hc c' }

/-! ## Calls -/

/-- A use of an editor. -/
inductive Call where
  /-- One record. -/
  | apply (record : Record)
  /-- A row of records, up to the first that fails. -/
  | applyAll (records : List Record)

/-- The editor as a call leaves it, failed or not. -/
def call (editor : Editor) : Call → Editor
  | .apply record => (editor.attempt record).1
  | .applyAll records => (editor.applyAll records).1

/-- The editor after a sequence of calls. -/
def run (editor : Editor) (calls : List Call) : Editor := calls.foldl call editor

theorem run_apply_cons (editor : Editor) (record : Record) (records : List Record) :
    editor.run ((record :: records).map .apply)
      = (editor.attempt record).1.run (records.map .apply) :=
  rfl

/-- An attempt, successful or not, leaves a history behind. -/
theorem History.attempt (h : History original done editor) (record : Record) :
    ∃ more, History original (done ++ more) (editor.attempt record).1 := by
  cases houtcome : (editor.attempt record).2 with
  | error failure =>
      rw [h.attempt_error houtcome]
      exact ⟨[], by rwa [List.append_nil]⟩
  | ok => exact ⟨[record], h.attempt_ok houtcome⟩

theorem History.applyAll (h : History original done editor) (records : List Record) :
    ∃ more, History original (done ++ more) (editor.applyAll records).1 := by
  induction records generalizing done editor with
  | nil => exact ⟨[], by rwa [List.append_nil]⟩
  | cons record records ih =>
      obtain ⟨more, hstep⟩ := h.attempt record
      rw [Editor.applyAll]
      split
      · next editor' failure heq => rw [heq] at hstep; exact ⟨more, hstep⟩
      · next editor' heq =>
        rw [heq] at hstep
        obtain ⟨rest, hrest⟩ := ih hstep
        exact ⟨more ++ rest, by rwa [← List.append_assoc]⟩

/-- A row of records that has been applied to the end joins the history as a whole. -/
theorem History.applyAll_ok (h : History original done editor) {records : List Record} {n : Nat}
    (hok : (editor.applyAll records).2 = .ok n) :
    History original (done ++ records) (editor.applyAll records).1 := by
  induction records generalizing done editor n with
  | nil => rwa [List.append_nil]
  | cons record records ih =>
      rw [Editor.applyAll] at hok ⊢
      split at hok
      · cases hok
      · next next heq =>
        have hnext : History original (done ++ [record]) (editor.attempt record).1 :=
          h.attempt_ok (by rw [heq])
        rw [heq] at hnext
        simp only at hok hnext ⊢
        cases hrest : (next.applyAll records).2 with
        | error failure =>
            rw [hrest] at hok
            cases hok
        | ok m =>
            rw [← List.singleton_append, ← List.append_assoc]
            exact ih hnext hrest

/-- **Every sequence of calls leaves a history behind.** -/
theorem History.run (h : History original done editor) (calls : List Call) :
    ∃ more, History original (done ++ more) (editor.run calls) := by
  induction calls generalizing done editor with
  | nil => exact ⟨[], by rwa [List.append_nil]⟩
  | cons first calls ih =>
      have hcall : ∃ more, History original (done ++ more) (editor.call first) := by
        cases first with
        | apply record => exact h.attempt record
        | applyAll records => exact h.applyAll records
      obtain ⟨more, hmore⟩ := hcall
      obtain ⟨rest, hrest⟩ := ih hmore
      exact ⟨more ++ rest, by rwa [← List.append_assoc]⟩

end Editor

end TaskRevision
