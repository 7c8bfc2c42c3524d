import TaskRevision.Proofs.Editor.Outcome
/-!
# Rows of records

A row of records is applied up to the first that fails.  What that means for two rows behind one
another, and when a row is applied to the end, is said here once: a row fails with the first thing that
is wrong with one of its records, and what is wrong with a record can be asked of the editor before any
of them is applied.

* `applyAll_append_of_ok`, `applyAll_append_of_error` — one row behind another;
* `History.applyAll_outcome` — **the first thing that is wrong** ends a row.
-/

namespace TaskRevision

open Update (Record)

namespace Editor

/-- Why a record cannot be applied, if it cannot. -/
def fault? (editor : Editor) (record : Record) : Option Failure :=
  match (editor.attempt record).2 with
  | .ok () => none
  | .error failure => some failure

/-! ## One row behind another -/

section

variable {editor next : Editor} {record : Record} {failure : Failure} {xs : List Record}

theorem applyAll_cons_of_ok (h : editor.attempt record = (next, .ok ())) (records : List Record) :
    editor.applyAll (record :: records)
      = ((next.applyAll records).1, (next.applyAll records).2.map (· + 1)) := by
  rw [applyAll, h]

theorem applyAll_cons_of_error (h : editor.attempt record = (next, .error failure))
    (records : List Record) : editor.applyAll (record :: records) = (next, .error failure) := by
  rw [applyAll, h]

/-- A row of records that is applied to the end goes on with the next row. -/
theorem applyAll_append_of_ok {n : Nat} (h : editor.applyAll xs = (next, .ok n))
    (ys : List Record) :
    editor.applyAll (xs ++ ys) = ((next.applyAll ys).1, (next.applyAll ys).2.map (· + n)) := by
  induction xs generalizing editor n with
  | nil =>
      cases h
      cases hys : next.applyAll ys with
      | mk last outcome => cases outcome <;> simp [hys, Except.map]
  | cons record xs ih =>
      cases hattempt : editor.attempt record with
      | mk second outcome =>
          cases outcome with
          | error failure => rw [applyAll_cons_of_error hattempt] at h; cases h
          | ok =>
              rw [applyAll_cons_of_ok hattempt] at h
              rw [List.cons_append, applyAll_cons_of_ok hattempt]
              cases hxs : second.applyAll xs with
              | mk third count =>
                  cases count with
                  | error failure => rw [hxs] at h; cases h
                  | ok m =>
                      rw [hxs] at h
                      cases h
                      rw [ih hxs]
                      cases (third.applyAll ys).2 <;> simp [Except.map, Nat.add_assoc]

/-- A row of records that fails does not come to the next row. -/
theorem applyAll_append_of_error (h : editor.applyAll xs = (next, .error failure))
    (ys : List Record) : editor.applyAll (xs ++ ys) = (next, .error failure) := by
  induction xs generalizing editor with
  | nil => cases h
  | cons record xs ih =>
      cases hattempt : editor.attempt record with
      | mk second outcome =>
          cases outcome with
          | error first =>
              rw [applyAll_cons_of_error hattempt] at h
              cases h
              rw [List.cons_append, applyAll_cons_of_error hattempt]
          | ok =>
              rw [applyAll_cons_of_ok hattempt] at h
              rw [List.cons_append, applyAll_cons_of_ok hattempt]
              cases hxs : second.applyAll xs with
              | mk third count =>
                  cases count with
                  | ok m => rw [hxs] at h; cases h
                  | error last =>
                      rw [hxs] at h
                      cases h
                      rw [ih hxs]
                      rfl

end

/-! ## The first thing that is wrong -/

section

variable {original : List Container} {done : List Record} {start editor : Editor}

theorem History.of_applyAll (h : ofContainers original = .ok start) {records : List Record} {n : Nat}
    (hok : (start.applyAll records).2 = .ok n) : History original records (start.applyAll records).1 :=
  (History.of_ofContainers h).applyAll_ok hok

/-- Nothing is wrong with a record that the original containers allow, and with no other. -/
theorem History.fault?_eq_none_iff (h : History original done editor) {record : Record} :
    editor.fault? record = none ↔ record.verdict original = .ok () := by
  rw [fault?, h.outcome]
  cases record.verdict original <;> simp

/-- What is wrong with a record does not change while an editor is used. -/
theorem History.fault?_eq (hstart : History original [] start) (h : History original done editor)
    (record : Record) : editor.fault? record = start.fault? record := by
  rw [fault?, fault?, h.outcome, hstart.outcome]

/-- **The first thing that is wrong** with its records ends a row; if there is none, the row is applied
to the end. -/
theorem History.applyAll_outcome (hstart : History original [] start)
    (h : History original done editor) (records : List Record) :
    (editor.applyAll records).2 = match records.findSome? start.fault? with
      | none => .ok records.length
      | some failure => .error failure := by
  induction records generalizing done editor with
  | nil => rfl
  | cons record records ih =>
      have hfault := hstart.fault?_eq h record
      rw [List.findSome?_cons, ← hfault, fault?]
      cases hattempt : editor.attempt record with
      | mk next outcome =>
          cases outcome with
          | error failure => rw [applyAll_cons_of_error hattempt]
          | ok =>
              have hnext : History original (done ++ [record]) next := by
                have hok := h.attempt_ok (show (editor.attempt record).2 = .ok () by rw [hattempt])
                rwa [hattempt] at hok
              rw [applyAll_cons_of_ok hattempt, ih hnext]
              cases records.findSome? start.fault? <;> rfl

/-- A row comes to its end if nothing is wrong with any of its records, and to the number of them. -/
theorem History.applyAll_eq_ok_iff (hstart : History original [] start) {records : List Record}
    {n : Nat} : (start.applyAll records).2 = .ok n ↔
      (∀ record ∈ records, start.fault? record = none) ∧ records.length = n := by
  rw [hstart.applyAll_outcome hstart, ← List.findSome?_eq_none_iff]
  cases records.findSome? start.fault? <;> simp

end

end Editor

end TaskRevision
