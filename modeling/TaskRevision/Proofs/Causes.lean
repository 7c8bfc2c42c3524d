import TaskRevision.Field
import TaskRevision.Revision
/-!
# Failures with and without a cause

A failure has a cause, which is told beside it, if a file or the standard input could not be read.  Once
the document is there nothing more is fetched: whatever goes wrong with it, with the update strings or
with their records has no cause beside it.

* `Uncaused` — results that are fine, or failures without a cause;
* `Uncaused.bind`, `Uncaused.map` — such results put together;
* `uncaused_revise`, `uncaused_reviseText`, `uncaused_extract` — **no failure over a document has a
  cause.**
-/

namespace TaskRevision

open Update (Kind Mode Record Strings)

/-- If this is a failure it has no cause. -/
def Uncaused {α : Type} (result : Except Failure α) : Prop :=
  ∀ failure, result = .error failure → failure.cause? = none

section

variable {α β : Type}

theorem uncaused_ok (x : α) : Uncaused (.ok x) := by
  intro failure h
  cases h

theorem uncaused_error {failure : Failure} (h : failure.cause? = none) :
    Uncaused (.error failure : Except Failure α) := by
  intro other hother
  cases hother
  exact h

/-- Steps that fail without a cause fail without a cause one after the other. -/
theorem Uncaused.bind {x : Except Failure α} {f : α → Except Failure β} (hx : Uncaused x)
    (hf : ∀ a, Uncaused (f a)) : Uncaused (x >>= f) := by
  cases x with
  | error failure => exact uncaused_error (hx failure rfl)
  | ok a => exact hf a

theorem Uncaused.map {x : Except Failure α} (hx : Uncaused x) (f : α → β) : Uncaused (x.map f) := by
  cases x with
  | error failure => exact uncaused_error (hx failure rfl)
  | ok a => exact uncaused_ok (f a)

end

/-! ## Documents -/

theorem Description.uncaused_parse (document : String) : Uncaused (parse document) := by
  rw [parse]
  split
  · exact uncaused_error rfl
  · split
    · exact uncaused_error rfl
    · exact uncaused_ok _

theorem uncaused_extract (document field : String) : Uncaused (extract document field) := by
  rw [extract]
  split
  · exact uncaused_error rfl
  · split
    · exact uncaused_ok _
    · exact uncaused_error rfl

theorem Index.uncaused_addFrom (position : Nat) (index : Index) (containers : List Container) :
    Uncaused (addFrom position index containers) := by
  induction containers generalizing position index with
  | nil => exact uncaused_ok index
  | cons c containers ih =>
      rw [addFrom]
      split
      · exact uncaused_error rfl
      · split
        · exact uncaused_error rfl
        · split
          · exact uncaused_error rfl
          · exact ih _ _

theorem Editor.uncaused_ofContainers (containers : List Container) :
    Uncaused (ofContainers containers) :=
  (Index.uncaused_addFrom 0 ⟨[]⟩ containers).bind fun _ => uncaused_ok _

/-! ## Records -/

theorem Update.uncaused_records (kind : Kind) (raw : String) : Uncaused (records kind raw) := by
  rw [records]
  split
  · exact uncaused_ok _
  · exact uncaused_error rfl

theorem Update.Record.uncaused_revise (record : Record) (c : Container) (entry : Entry) :
    Uncaused (record.revise c entry).2 := by
  have list : ∀ (listing : Container.Listing) (container name value : String),
      Uncaused (c.revise entry listing container name value).2 := by
    intro listing container name value
    rw [Container.revise]
    split
    · exact uncaused_error rfl
    · exact uncaused_ok ()
  cases record with
  | image container mode value =>
      rw [Record.revise, Container.reviseImage]
      split
      · next failure hfailure =>
        refine uncaused_error ?_
        cases mode <;> cases himage : entry.image <;> rw [himage] at hfailure <;> cases hfailure <;> rfl
      · exact uncaused_ok ()
  | environment container name value => exact list .environment container name value
  | label container key value =>
      rw [Record.revise, Container.reviseLabel]
      split
      · exact uncaused_error rfl
      · exact uncaused_ok ()
  | secret container name source => exact list .secrets container name source

namespace Editor

theorem uncaused_attempt (editor : Editor) (record : Record) : Uncaused (editor.attempt record).2 := by
  rw [attempt, Index.resolve]
  cases editor.index.get? record.container with
  | none => exact uncaused_error rfl
  | some entry =>
      simp only
      split
      · exact uncaused_error rfl
      · next c _ => exact record.uncaused_revise c entry

theorem uncaused_applyAll (editor : Editor) (records : List Record) :
    Uncaused (editor.applyAll records).2 := by
  induction records generalizing editor with
  | nil => exact uncaused_ok 0
  | cons record records ih =>
      have hfirst := editor.uncaused_attempt record
      rw [applyAll]
      split
      · next next failure heq =>
        rw [heq] at hfirst
        exact uncaused_error (hfirst failure rfl)
      · next next _ => exact (ih next).map (· + 1)

theorem uncaused_applyStrings (editor : Editor) (strings : List (Kind × String)) :
    Uncaused (editor.applyStrings strings) := by
  induction strings generalizing editor with
  | nil => exact uncaused_ok editor
  | cons entry strings ih =>
      obtain ⟨kind, raw⟩ := entry
      refine (Update.uncaused_records kind raw).bind fun records => ?_
      have hall := editor.uncaused_applyAll records
      split
      · exact ih _
      · next failure heq =>
        rw [heq] at hall
        exact uncaused_error (hall failure rfl)

end Editor

/-! ## Revisions -/

/-- **No failure of a revision has a cause.** -/
theorem uncaused_revise (document : String) (strings : Strings) : Uncaused (revise document strings) :=
  (Description.uncaused_parse document).bind fun description =>
    (Editor.uncaused_ofContainers description.containers).bind fun editor =>
      (editor.uncaused_applyStrings strings.inApplyOrder).bind fun _ => uncaused_ok _

theorem uncaused_reviseText (document : String) (strings : Strings) (style : Json.Style) :
    Uncaused (reviseText document strings style) :=
  (uncaused_revise document strings).bind fun _ => uncaused_ok _

end TaskRevision
