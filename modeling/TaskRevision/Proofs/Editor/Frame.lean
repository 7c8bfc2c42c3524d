import TaskRevision.Proofs.Editor.History
import TaskRevision.Proofs.Settled
/-!
# What edits leave alone

Records add to containers and take nothing away.  A container that no applied record names stays as it
is; in any other one the fields keep their order, new fields come behind them in the order in which
they were first written, and the value of a field that no applied record writes is the old one.  It
does not matter how many records fail in between, nor that a field is opened before its value is
looked at.

* `Applied.keys`, `Applied.get?` — the fields after a row of edits, and the values of those not written;
* `History.run_apply` — a row of records, each tried on its own, leaves the history of its successes;
* `framed_run` — the statement about all containers of an editor.
-/

namespace TaskRevision

open Update (Record)

/-! ## Fields after a row of edits -/

theorem extend_extended (keys names : List String) (name : String) :
    (if name ∈ keys ++ names.eraseDups.filter (· ∉ keys)
      then keys ++ names.eraseDups.filter (· ∉ keys)
      else keys ++ names.eraseDups.filter (· ∉ keys) ++ [name])
      = keys ++ (names ++ [name]).eraseDups.filter (· ∉ keys) := by
  rw [eraseDups_append_singleton]
  by_cases hkeys : name ∈ keys
  · by_cases hnames : name ∈ names <;> simp [hkeys, hnames, List.filter_append]
  · by_cases hnames : name ∈ names <;> simp [hkeys, hnames, List.filter_append]

variable {first : Option String} {c c' : Container} {records : List Record}

/-- Fields keep their order, and those that were missing come last, in the order of first edits. -/
theorem Applied.keys (h : Applied first c records c') :
    Keyed.keys c'.fields = Keyed.keys c.fields
      ++ (records.map Record.field).eraseDups.filter (· ∉ Keyed.keys c.fields) := by
  induction h with
  | nil => simp
  | snoc _ hedit ih =>
      obtain ⟨v, rfl⟩ := edit_eq_set hedit
      rw [Container.set, Keyed.keys_insert, ih, List.map_append, List.map_singleton]
      exact extend_extended _ _ _

/-- A field that no edit writes keeps its value. -/
theorem Applied.get? (h : Applied first c records c') {field : String}
    (hfield : field ∉ records.map Record.field) : c'.get? field = c.get? field := by
  induction h with
  | nil => rfl
  | snoc _ hedit ih =>
      obtain ⟨v, rfl⟩ := edit_eq_set hedit
      rw [List.map_append, List.mem_append, not_or, List.map_singleton, List.mem_singleton] at hfield
      rw [Container.get?_set_of_ne _ v hfield.2, ih hfield.1]

theorem Applied.eq_of_nil (h : Applied first c [] c') : c' = c := by
  generalize hrecords : ([] : List Record) = records at h
  cases h with
  | nil => rfl
  | snoc => simp at hrecords

/-- The container `new` is what edits by `records` may have made of `old`. -/
structure Container.ExtendedBy (old : Container) (records : List Record) (new : Container) : Prop where
  /-- Without records nothing happens. -/
  same : records = [] → new = old
  /-- The fields that were there stand first, in order; behind them those that were missing and have
  been written, each once, in the order in which they were first written. -/
  keys : Keyed.keys new.fields = Keyed.keys old.fields
    ++ (records.map Record.field).eraseDups.filter (· ∉ Keyed.keys old.fields)
  /-- A field that no record writes has its old value, null or missing as it may be. -/
  get? : ∀ field, field ∉ records.map Record.field → new.get? field = old.get? field

theorem Applied.extendedBy (h : Applied first c records c') : c.ExtendedBy records c' where
  same hrecords := by
    subst hrecords
    exact h.eq_of_nil
  keys := h.keys
  get? _ hfield := h.get? hfield

/-! ## Rows of records, each tried on its own -/

namespace Editor

variable {original : List Container} {done : List Record} {editor : Editor}

/-- The records that are applied when each of a row is tried, whatever becomes of the others. -/
def successes (editor : Editor) : List Record → List Record
  | [] => []
  | record :: records =>
    match editor.attempt record with
    | (editor, .ok ()) => record :: editor.successes records
    | (editor, .error _) => editor.successes records

/-- A row of records leaves the history of its successes. -/
theorem History.run_apply (h : History original done editor) (records : List Record) :
    History original (done ++ editor.successes records) (editor.run (records.map .apply)) := by
  induction records generalizing done editor with
  | nil => rwa [successes, List.append_nil]
  | cons record records ih =>
      rw [run_apply_cons, successes]
      split
      · next next heq =>
        have hnext : History original (done ++ [record]) (editor.attempt record).1 :=
          h.attempt_ok (by rw [heq])
        rw [heq] at hnext ⊢
        rw [← List.singleton_append, ← List.append_assoc]
        exact ih hnext
      · next next failure heq =>
        have hfail : (editor.attempt record).2 = .error failure := by rw [heq]
        have hsame := h.attempt_error hfail
        rw [heq] at hsame ⊢
        simp only at hsame ⊢
        rw [hsame]
        exact ih h

/-- The containers of the editor are the `original` ones, extended by the records that name them. -/
structure Framed (original : List Container) (records : List Record) (editor : Editor) : Prop where
  /-- There are as many containers as there were. -/
  length : editor.containers.length = original.length
  /-- They have the same names, in the same order. -/
  names : editor.containers.map Container.name? = original.map Container.name?
  /-- Each is extended by the records that name it, and by nothing else. -/
  extended : ∀ {i : Nat} {old : Container}, original[i]? = some old →
    ∃ new, editor.containers[i]? = some new ∧ old.ExtendedBy (targeting old.name? records) new

/-- **Edits add, and leave alone what they do not name.**  After any row of records, failing ones among
them, the containers are the original ones, extended by the records that could be applied. -/
theorem framed_run {start : Editor} (h : ofContainers original = .ok start) (records : List Record) :
    (start.run (records.map .apply)).Framed original (start.successes records) := by
  have hrun := (History.of_ofContainers h).run_apply records
  rw [List.nil_append] at hrun
  refine ⟨hrun.length, hrun.map_name?, fun {i old} hold => ?_⟩
  obtain ⟨new, hnew⟩ := hrun.exists_current hold
  exact ⟨new, hnew, (hrun.applied hold hnew).extendedBy⟩

/-- A null field that stays, a null field that is written, two fields that are made, and failures. -/
theorem framed_run_missing_fields :
    let web : Container := ⟨[("secrets", .null), ("name", .string "web"), ("dockerLabels", .null)]⟩
    let db : Container := ⟨[("name", .string "db"), ("environment", .bool true)]⟩
    let start : Editor := ⟨[web, db], ⟨[("web", ⟨0, none, [], [], []⟩), ("db", ⟨1, none, [], [], []⟩)]⟩⟩
    let records : List Record := [.environment "db" "A" "1", .environment "web" "A" "1",
      .image "web" .tag "2", .label "web" "k" "v", .image "web" .imageAndTag "app:1"]
    ofContainers [web, db] = .ok start ∧
      (start.run (records.map .apply)).Framed [web, db] (start.successes records) :=
  ⟨rfl, framed_run rfl _⟩

end Editor

end TaskRevision
