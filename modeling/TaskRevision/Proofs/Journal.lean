import TaskRevision.Journal
/-!
# What a run tells of itself matters little

No event of a run is a warning or an error: what goes wrong is told by the failure in which the run ends,
and by that alone.

* `Minor` — events among which there is no warning and no error;
* `Editor.minor_attemptEvents` — the events of one edit, and from them those of rows of edits;
* `minor_reviseEvents`, `minor_extractEvents` — **the events of revisions and extractions.**
-/

namespace TaskRevision

open Update (Kind Record Strings)

/-- None of the events is a warning or an error. -/
def Minor (events : List Event) : Prop :=
  ∀ event ∈ events, event.severity ≠ .error ∧ event.severity ≠ .warning

theorem minor_nil : Minor [] := nofun

theorem Minor.cons {event : Event} {events : List Event}
    (h : event.severity ≠ .error ∧ event.severity ≠ .warning) (hevents : Minor events) :
    Minor (event :: events) :=
  List.forall_mem_cons.2 ⟨h, hevents⟩

theorem Minor.append {first second : List Event} (hfirst : Minor first) (hsecond : Minor second) :
    Minor (first ++ second) :=
  List.forall_mem_append.2 ⟨hfirst, hsecond⟩

namespace Editor

theorem minor_attemptEvents (editor : Editor) (record : Record) :
    Minor (editor.attemptEvents record) := by
  refine .cons ⟨nofun, nofun⟩ ?_
  split
  · exact .cons ⟨nofun, nofun⟩ minor_nil
  · exact minor_nil

theorem minor_applyAllEvents (editor : Editor) (records : List Record) :
    Minor (editor.applyAllEvents records) := by
  induction records generalizing editor with
  | nil => exact minor_nil
  | cons record records ih =>
      refine (editor.minor_attemptEvents record).append ?_
      split
      · exact ih _
      · exact minor_nil

theorem minor_applyStringsEvents (editor : Editor) (strings : List (Kind × String)) :
    Minor (editor.applyStringsEvents strings) := by
  induction strings generalizing editor with
  | nil => exact minor_nil
  | cons entry strings ih =>
      obtain ⟨kind, raw⟩ := entry
      refine .cons ⟨nofun, nofun⟩ ?_
      split
      · exact minor_nil
      · next records _ =>
        refine (editor.minor_applyAllEvents records).append ?_
        split
        · exact minor_nil
        · exact .cons ⟨nofun, nofun⟩ (ih _)

end Editor

/-- **A revision tells of nothing that is a warning or an error.** -/
theorem minor_reviseEvents (document : String) (strings : Strings) :
    Minor (reviseEvents document strings) := by
  refine .cons ⟨nofun, nofun⟩ ?_
  split
  · exact minor_nil
  · split
    · exact minor_nil
    · next editor _ => exact .cons ⟨nofun, nofun⟩ (editor.minor_applyStringsEvents _)

theorem minor_extractEvents (document field : String) : Minor (extractEvents document field) := by
  rw [extractEvents]
  split
  · exact minor_nil
  · split
    · exact .cons ⟨nofun, nofun⟩ minor_nil
    · exact minor_nil

end TaskRevision
