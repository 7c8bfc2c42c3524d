import TaskRevision.Proofs.Settled
/-!
# Tables after edits

A row of edits overlays a table (`Keyed.overlay`).  What is found in the overlaid table, which part of it
depends on the order of the edits, and what happens when the same edits come once more, depends on the
last value that each name is given, and on little else.

* `lookup_overlay` — what is found;
* `overlay_eq_append` — **the entries that were there, with last values, and behind them the new ones**;
* `settled_perm` — rows of edits with the same last values settle to the same entries, in some order;
* `overlay_eq_self` — edits that say what is there already change nothing.
-/

namespace TaskRevision

namespace Keyed

variable {α : Type}

/-- What is found in an overlaid table: the last value, or what was there. -/
theorem lookup_overlay (edits entries : List (String × α)) (name : String) :
    (overlay edits entries).lookup name = (lastValue? edits name).or (entries.lookup name) := by
  induction entries generalizing edits with
  | nil => rw [overlay, lookup_settled, List.lookup_nil, Option.or_none]
  | cons entry entries ih =>
      obtain ⟨key, value⟩ := entry
      rw [overlay]
      by_cases h : name = key
      · subst h
        cases hlast : lastValue? edits name <;> simp
      · rw [List.lookup_cons, List.lookup_cons, beq_eq_false_iff_ne.2 h]
        simp only [ih, lastValue?_filter_ne h]

/-! ## Old entries and new ones -/

/-- The entries with other values: under each key the first takes the value that is given for it. -/
def revalue (value? : String → Option α) : List (String × α) → List (String × α)
  | [] => []
  | entry :: entries =>
      (entry.1, (value? entry.1).getD entry.2)
        :: revalue (fun name => if name = entry.1 then none else value? name) entries

@[simp] theorem keys_revalue (value? : String → Option α) (entries : List (String × α)) :
    keys (revalue value? entries) = keys entries := by
  induction entries generalizing value? with
  | nil => rfl
  | cons entry entries ih => rw [revalue, keys_cons, ih, keys_cons]

/-- Values that are there already change nothing. -/
theorem revalue_eq_self {value? : String → Option α} {entries : List (String × α)}
    (h : ∀ name value, value? name = some value → entries.lookup name = some value) :
    revalue value? entries = entries := by
  induction entries generalizing value? with
  | nil => rfl
  | cons entry entries ih =>
      obtain ⟨key, value⟩ := entry
      have hhead : (value? key).getD value = value := by
        cases hkey : value? key with
        | none => rfl
        | some other =>
            have hfound := h key other hkey
            rw [List.lookup_cons_self, Option.some.injEq] at hfound
            exact hfound.symm
      have hrest : ∀ name other, (if name = key then none else value? name) = some other →
          entries.lookup name = some other := by
        intro name other hname
        split at hname
        · cases hname
        · next hne =>
          have hfound := h name other hname
          rwa [List.lookup_cons, beq_eq_false_iff_ne.2 hne] at hfound
      rw [revalue, hhead, ih hrest]

/-- **The entries that were there, with last values, and behind them the new ones.** -/
theorem overlay_eq_append (edits entries : List (String × α)) :
    overlay edits entries = revalue (lastValue? edits) entries
      ++ (settled edits).filter fun edit => edit.1 ∉ keys entries := by
  induction entries generalizing edits with
  | nil =>
      rw [overlay, revalue, List.nil_append]
      exact (List.filter_eq_self.2 fun edit _ => by simp).symm
  | cons entry entries ih =>
      have hlast : lastValue? (edits.filter fun edit => edit.1 ≠ entry.1)
          = fun name => if name = entry.1 then none else lastValue? edits name := by
        funext name
        split
        · next heq =>
          have hnone : ¬ (lastValue? (edits.filter fun edit => edit.1 ≠ entry.1) name).isSome := by
            rw [lastValue?_isSome_iff, keys, heq]
            simp
          exact Option.not_isSome_iff_eq_none.1 hnone
        · next hne => exact lastValue?_filter_ne hne edits
      rw [overlay, revalue, ih, hlast, settled_filter_ne, List.filter_filter, List.cons_append]
      simp [not_or, Bool.and_comm]

/-- Rows of edits with the same last values settle to the same entries, in some order. -/
theorem settled_perm {edits edits' : List (String × α)} (h : lastValue? edits = lastValue? edits') :
    (settled edits).Perm (settled edits') := by
  have hkeys : (keys edits).eraseDups.Perm (keys edits').eraseDups := by
    refine (List.perm_ext_iff_of_nodup (nodup_eraseDups _) (nodup_eraseDups _)).2 fun name => ?_
    rw [List.mem_eraseDups, List.mem_eraseDups, ← lastValue?_isSome_iff, ← lastValue?_isSome_iff, h]
  rw [settled, settled, h]
  exact hkeys.filterMap _

/-- Edits that say what is there already change nothing. -/
theorem overlay_eq_self {edits entries : List (String × α)}
    (h : ∀ name value, lastValue? edits name = some value → entries.lookup name = some value) :
    overlay edits entries = entries := by
  have hnew : ((settled edits).filter fun edit => edit.1 ∉ keys entries) = [] := by
    refine List.filter_eq_nil_iff.2 fun edit hedit => ?_
    have hfound := h edit.1 edit.2 (mem_settled_iff.1 hedit)
    have hmem : edit.1 ∈ keys entries := lookup_isSome_iff.1 (Option.isSome_of_eq_some hfound)
    simp [hmem]
  rw [overlay_eq_append, hnew, List.append_nil, revalue_eq_self h]

/-- The same edits once more change nothing. -/
@[simp] theorem overlay_overlay (edits entries : List (String × α)) :
    overlay edits (overlay edits entries) = overlay edits entries := by
  refine overlay_eq_self fun name value hlast => ?_
  rw [lookup_overlay, hlast, Option.some_or]

end Keyed

end TaskRevision
