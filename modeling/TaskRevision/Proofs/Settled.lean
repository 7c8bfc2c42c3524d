import Mathlib.Data.List.Induction
import Mathlib.Data.List.Nodup
import TaskRevision.Keyed
/-!
# What a row of edits comes to

Edits set values under names, one after the other.  In the end each name has the value that was set
last, and the names stand in the order in which they were first set: `settled` says so without
following the edits one by one.  `overlay` says the same of edits of a table that has entries already.

* `settled_append` — one more edit writes one entry of the settled ones;
* `insert_overlay` — **one more edit writes one entry of the overlaid table**;
* `overlay_eq_of_nodup` — with distinct keys: the old entries, edited, and then the new ones.
-/

namespace TaskRevision

theorem eraseDups_append_singleton (names : List String) (name : String) :
    (names ++ [name]).eraseDups
      = if name ∈ names then names.eraseDups else names.eraseDups ++ [name] := by
  rw [List.eraseDups_append]
  by_cases h : name ∈ names
  · simp [List.removeAll, h]
  · simp [List.removeAll, h, List.eraseDups_cons]

theorem nodup_eraseDups (names : List String) : names.eraseDups.Nodup := by
  induction names using List.reverseRecOn with
  | nil => exact List.nodup_nil
  | append_singleton names name ih =>
      rw [eraseDups_append_singleton]
      split
      · exact ih
      · next hnew =>
        rw [← List.concat_eq_append]
        exact ih.concat fun hmem => hnew (List.mem_eraseDups.1 hmem)

namespace Keyed

variable {α : Type}

/-! ## Last values and settled edits -/

/-- The value that edits set last under a name. -/
def lastValue? (edits : List (String × α)) (name : String) : Option α := edits.reverse.lookup name

@[simp] theorem lastValue?_nil (name : String) :
    lastValue? ([] : List (String × α)) name = none := rfl

/-- The last edit decides for its own name. -/
theorem lastValue?_append (edits : List (String × α)) (edit : String × α) (name : String) :
    lastValue? (edits ++ [edit]) name
      = if name = edit.1 then some edit.2 else lastValue? edits name := by
  rw [lastValue?, List.reverse_append, List.reverse_singleton, List.singleton_append]
  by_cases h : name = edit.1
  · obtain ⟨key, value⟩ := edit
    subst h
    simp
  · rw [List.lookup_cons, beq_eq_false_iff_ne.2 h, if_neg h]
    rfl

/-- A name has a last value if and only if it is edited. -/
theorem lastValue?_isSome_iff {edits : List (String × α)} {name : String} :
    (lastValue? edits name).isSome ↔ name ∈ keys edits := by
  rw [lastValue?, lookup_isSome_iff, keys, keys, List.map_reverse, List.mem_reverse]

/-- For each name, in the order in which the names are first set, the value that is set last. -/
def settled (edits : List (String × α)) : List (String × α) :=
  (keys edits).eraseDups.filterMap fun name => (lastValue? edits name).map fun value => (name, value)

/-- Looking up a name in a table that gives values to names. -/
theorem lookup_filterMap (f : String → Option α) (names : List String) (name : String) :
    (names.filterMap fun other => (f other).map fun value => (other, value)).lookup name
      = if name ∈ names then f name else none := by
  induction names with
  | nil => rfl
  | cons other names ih =>
      by_cases h : name = other
      · subst h
        cases hf : f name with
        | none => rw [List.filterMap_cons_none (by rw [hf]; rfl), ih, hf]; simp
        | some value => rw [List.filterMap_cons_some (by rw [hf]; rfl)]; simp
      · cases hf : f other with
        | none =>
            rw [List.filterMap_cons_none (by rw [hf]; rfl), ih]
            simp [h]
        | some value =>
            rw [List.filterMap_cons_some (by rw [hf]; rfl), List.lookup_cons,
              beq_eq_false_iff_ne.2 h]
            simpa [h] using ih

theorem keys_filterMap {f : String → Option α} {names : List String}
    (h : ∀ name ∈ names, (f name).isSome) :
    keys (names.filterMap fun name => (f name).map fun value => (name, value)) = names := by
  induction names with
  | nil => rfl
  | cons name names ih =>
      rw [List.forall_mem_cons] at h
      obtain ⟨value, hvalue⟩ := Option.isSome_iff_exists.1 h.1
      rw [List.filterMap_cons_some (by rw [hvalue]; rfl), keys_cons, ih h.2]

theorem keys_settled (edits : List (String × α)) : keys (settled edits) = (keys edits).eraseDups :=
  keys_filterMap fun _ hname => lastValue?_isSome_iff.2 (List.mem_eraseDups.1 hname)

/-- What is settled under a name is what was set last. -/
@[simp] theorem lookup_settled (edits : List (String × α)) (name : String) :
    (settled edits).lookup name = lastValue? edits name := by
  rw [settled, lookup_filterMap]
  by_cases h : name ∈ keys edits
  · rw [if_pos (List.mem_eraseDups.2 h)]
  · rw [if_neg fun hmem => h (List.mem_eraseDups.1 hmem)]
    have hnone : ¬ (lastValue? edits name).isSome := fun hsome => h (lastValue?_isSome_iff.1 hsome)
    exact (Option.not_isSome_iff_eq_none.1 hnone).symm

theorem nodup_keys_settled (edits : List (String × α)) : (keys (settled edits)).Nodup := by
  rw [keys_settled]
  exact nodup_eraseDups _

theorem mem_settled_iff {edits : List (String × α)} {edit : String × α} :
    edit ∈ settled edits ↔ lastValue? edits edit.1 = some edit.2 := by
  rw [← lookup_settled, lookup_eq_some_iff_mem (nodup_keys_settled edits)]

/-- One more edit writes one entry of the settled ones. -/
theorem settled_append (edits : List (String × α)) (edit : String × α) :
    settled (edits ++ [edit]) = insert edit.1 edit.2 (settled edits) := by
  refine eq_of_lookup_eq ?_ (nodup_keys_settled _) fun name => ?_
  · rw [keys_insert, keys_settled, keys_settled, keys, List.map_append, List.map_singleton,
      eraseDups_append_singleton]
    simp only [List.mem_eraseDups, keys]
  · rw [lookup_settled, lastValue?_append]
    split
    · next heq => rw [heq, lookup_insert_self]
    · next hne => rw [lookup_insert_of_ne _ _ hne, lookup_settled]

/-! ## Edits of a table -/

/-- The table after edits: each entry with the value that was last set under its key, and the keys
that were not there behind.  Of entries with one key only the first is reached by edits. -/
def overlay (edits : List (String × α)) : List (String × α) → List (String × α)
  | [] => settled edits
  | entry :: entries =>
      (entry.1, (lastValue? edits entry.1).getD entry.2)
        :: overlay (edits.filter fun edit => edit.1 ≠ entry.1) entries

@[simp] theorem overlay_nil (entries : List (String × α)) : overlay [] entries = entries := by
  induction entries with
  | nil => rfl
  | cons entry entries ih => simp [overlay, ih]

/-- **One more edit writes one entry of the overlaid table.** -/
theorem insert_overlay (edits : List (String × α)) (edit : String × α) (entries : List (String × α)) :
    insert edit.1 edit.2 (overlay edits entries) = overlay (edits ++ [edit]) entries := by
  induction entries generalizing edits with
  | nil => exact (settled_append edits edit).symm
  | cons entry entries ih =>
      rw [overlay, overlay, lastValue?_append, List.filter_append]
      by_cases h : entry.1 = edit.1
      · simp [insert, h]
      · have hedit : [edit].filter (fun edit => edit.1 ≠ entry.1) = [edit] := by simp [Ne.symm h]
        rw [insert, if_neg h, if_neg h, hedit, ih]

/-- Edits of other names do not settle a name. -/
theorem settled_filter_ne (key : String) (edits : List (String × α)) :
    settled (edits.filter fun edit => edit.1 ≠ key)
      = (settled edits).filter fun entry => entry.1 ≠ key := by
  induction edits using List.reverseRecOn with
  | nil => rfl
  | append_singleton edits edit ih =>
      rw [List.filter_append, settled_append, filter_insert fun name => decide (name ≠ key)]
      by_cases h : edit.1 = key
      · have hnone : [edit].filter (fun edit => edit.1 ≠ key) = [] := by simp [h]
        rw [hnone, List.append_nil, ih, if_neg (by simp [h])]
      · have hedit : [edit].filter (fun edit => edit.1 ≠ key) = [edit] := by simp [h]
        rw [hedit, settled_append, ih, if_pos (by simp [h])]

theorem lastValue?_filter_ne {key name : String} (h : name ≠ key) (edits : List (String × α)) :
    lastValue? (edits.filter fun edit => edit.1 ≠ key) name = lastValue? edits name := by
  induction edits using List.reverseRecOn with
  | nil => rfl
  | append_singleton edits edit ih =>
      rw [List.filter_append, lastValue?_append]
      by_cases hedit : edit.1 = key
      · have hnone : [edit].filter (fun edit => edit.1 ≠ key) = [] := by simp [hedit]
        rw [hnone, List.append_nil, if_neg (hedit ▸ h), ih]
      · have hsame : [edit].filter (fun edit => edit.1 ≠ key) = [edit] := by simp [hedit]
        rw [hsame, lastValue?_append, ih]

/-- With distinct keys the overlaid table is the old entries, edited, and behind them the settled
edits of keys that were not there. -/
theorem overlay_eq_of_nodup {entries : List (String × α)} (h : (keys entries).Nodup)
    (edits : List (String × α)) :
    overlay edits entries
      = (entries.map fun entry => (entry.1, (lastValue? edits entry.1).getD entry.2))
        ++ (settled edits).filter fun edit => edit.1 ∉ keys entries := by
  induction entries generalizing edits with
  | nil =>
      rw [overlay, List.map_nil, List.nil_append]
      exact (List.filter_eq_self.2 fun edit _ => by simp).symm
  | cons entry entries ih =>
      rw [keys_cons, List.nodup_cons] at h
      have hmap : (entries.map fun other => (other.1,
            (lastValue? (edits.filter fun edit => edit.1 ≠ entry.1) other.1).getD other.2))
          = entries.map fun other => (other.1, (lastValue? edits other.1).getD other.2) := by
        refine List.map_congr_left fun other hother => ?_
        have hne : other.1 ≠ entry.1 := fun heq => h.1 (heq ▸ List.mem_map.2 ⟨other, hother, rfl⟩)
        rw [lastValue?_filter_ne hne]
      rw [overlay, ih h.2, hmap, settled_filter_ne, List.filter_filter, List.map_cons,
        List.cons_append]
      simp [not_or, Bool.and_comm]

example : overlay [("c", 1), ("a", 2), ("c", 3)] [("b", 0), ("a", 0)]
    = [("b", 0), ("a", 2), ("c", 3)] := by decide

end Keyed

end TaskRevision
