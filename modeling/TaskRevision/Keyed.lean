/-!
# Entries by key

A list of pairs read as a table: the order is that of first arrival and shows wherever the table is
written out.  Looking up is `List.lookup`; `Keyed.insert` writes an entry where its key already
stands, or at the end if it is new.

* `keys_insert_of_mem`, `insert_of_not_mem` — writing moves no key and adds at most one, last;
* `lookup_insert_self`, `lookup_insert_of_ne` — what was written is found, all else is as before;
* `insert_insert`, `insert_of_lookup` — writing twice, and writing what is there already.
-/

namespace TaskRevision.Keyed

variable {α : Type}

/-- The keys in order. -/
def keys (entries : List (String × α)) : List String := entries.map (·.1)

/-- The entries with `value` under `key`: in its old place, or last if the key is new. -/
def insert (key : String) (value : α) : List (String × α) → List (String × α)
  | [] => [(key, value)]
  | entry :: entries =>
    if entry.1 = key then (key, value) :: entries else entry :: insert key value entries

@[simp] theorem keys_nil : keys ([] : List (String × α)) = [] := rfl

@[simp] theorem keys_cons (entry : String × α) (entries : List (String × α)) :
    keys (entry :: entries) = entry.1 :: keys entries := rfl

/-- Writing under a key that is present moves nothing. -/
theorem keys_insert_of_mem {key : String} {entries : List (String × α)} (value : α)
    (h : key ∈ keys entries) : keys (insert key value entries) = keys entries := by
  induction entries with
  | nil => simp at h
  | cons entry entries ih =>
    unfold insert
    split
    · next heq => simp [heq]
    · next hne =>
      have : key ∈ keys entries := by simpa [Ne.symm hne] using h
      simp [ih this]

/-- A new key goes to the end, with its entry. -/
theorem insert_of_not_mem {key : String} {entries : List (String × α)} (value : α)
    (h : key ∉ keys entries) : insert key value entries = entries ++ [(key, value)] := by
  induction entries with
  | nil => rfl
  | cons entry entries ih =>
    simp only [keys_cons, List.mem_cons, not_or] at h
    simp [insert, Ne.symm h.1, ih h.2]

/-- A new key comes last, a known one stays where it is. -/
theorem keys_insert (key : String) (value : α) (entries : List (String × α)) :
    keys (insert key value entries)
      = if key ∈ keys entries then keys entries else keys entries ++ [key] := by
  by_cases h : key ∈ keys entries
  · rw [if_pos h, keys_insert_of_mem value h]
  · rw [if_neg h, insert_of_not_mem value h]
    simp [keys]

theorem nodup_keys_insert {key : String} {entries : List (String × α)} (value : α)
    (h : (keys entries).Nodup) : (keys (insert key value entries)).Nodup := by
  rw [keys_insert]
  split
  · exact h
  · next hnew =>
    refine List.nodup_append.2 ⟨h, by simp, ?_⟩
    intro other hother last hlast heq
    rw [List.mem_singleton] at hlast
    exact hnew (hlast ▸ heq ▸ hother)

theorem mem_insert {key : String} {value : α} {entries : List (String × α)} {entry : String × α}
    (h : entry ∈ insert key value entries) : entry = (key, value) ∨ entry ∈ entries := by
  induction entries with
  | nil => exact .inl (List.mem_singleton.1 h)
  | cons first entries ih =>
    unfold insert at h
    split at h
    · exact (List.mem_cons.1 h).imp_right (List.mem_cons_of_mem first)
    · rcases List.mem_cons.1 h with rfl | hrest
      · exact .inr (List.mem_cons_self ..)
      · exact (ih hrest).imp_right (List.mem_cons_of_mem first)

@[simp] theorem lookup_insert_self (key : String) (value : α) (entries : List (String × α)) :
    (insert key value entries).lookup key = some value := by
  induction entries with
  | nil => simp [insert]
  | cons entry entries ih =>
    obtain ⟨k, v⟩ := entry
    unfold insert
    split
    · simp
    · next hne => simpa [List.lookup_cons, beq_eq_false_iff_ne.2 (Ne.symm hne)] using ih

theorem lookup_insert_of_ne {key other : String} (value : α) (entries : List (String × α))
    (h : other ≠ key) : (insert key value entries).lookup other = entries.lookup other := by
  induction entries with
  | nil => simp [insert, List.lookup_cons, beq_eq_false_iff_ne.2 h]
  | cons entry entries ih =>
    obtain ⟨k, v⟩ := entry
    unfold insert
    split
    · next heq =>
      subst heq
      simp [List.lookup_cons, beq_eq_false_iff_ne.2 h]
    · simp [List.lookup_cons, ih]

theorem lookup_isSome_iff {key : String} {entries : List (String × α)} :
    (entries.lookup key).isSome ↔ key ∈ keys entries := by
  induction entries with
  | nil => simp
  | cons entry entries ih =>
    obtain ⟨k, v⟩ := entry
    by_cases h : key = k
    · subst h
      simp
    · simpa [List.lookup_cons, beq_eq_false_iff_ne.2 h, h] using ih

theorem lookup_eq_none_iff {key : String} {entries : List (String × α)} :
    entries.lookup key = none ↔ key ∉ keys entries := by
  rw [← lookup_isSome_iff]
  cases entries.lookup key <;> simp

/-- Where no key stands twice, what is found is what stands there. -/
theorem lookup_eq_some_iff_mem {key : String} {value : α} {entries : List (String × α)}
    (h : (keys entries).Nodup) : entries.lookup key = some value ↔ (key, value) ∈ entries := by
  induction entries with
  | nil => simp
  | cons entry entries ih =>
    obtain ⟨k, v⟩ := entry
    rw [keys_cons, List.nodup_cons] at h
    by_cases hk : key = k
    · subst hk
      have hrest : (key, value) ∉ entries := fun hmem => h.1 (List.mem_map.2 ⟨_, hmem, rfl⟩)
      simp [hrest, eq_comm]
    · rw [List.lookup_cons, beq_eq_false_iff_ne.2 hk, List.mem_cons, ih h.2]
      simp [hk]

/-- Entries chosen by their keys: writing commutes with the choice, or does not show in it. -/
theorem filter_insert (p : String → Bool) (key : String) (value : α)
    (entries : List (String × α)) :
    (insert key value entries).filter (fun entry => p entry.1)
      = if p key then insert key value (entries.filter fun entry => p entry.1)
        else entries.filter fun entry => p entry.1 := by
  induction entries with
  | nil => cases hp : p key <;> simp [insert, hp]
  | cons entry entries ih =>
    obtain ⟨k, v⟩ := entry
    by_cases hk : k = key
    · subst hk
      cases hp : p k <;> simp [insert, hp]
    · cases hp : p key <;> cases hq : p k <;> simp_all [insert]

theorem lookup_filter (p : String → Bool) {key : String} (h : p key = true)
    (entries : List (String × α)) :
    (entries.filter fun entry => p entry.1).lookup key = entries.lookup key := by
  induction entries with
  | nil => rfl
  | cons entry entries ih =>
    obtain ⟨k, v⟩ := entry
    by_cases hk : key = k
    · subst hk
      simp [h]
    · cases hp : p k <;> simp [List.lookup_cons, beq_eq_false_iff_ne.2 hk, hp, ih]

/-- Tables with the same keys in the same order are told apart by looking up. -/
theorem eq_of_lookup_eq {xs ys : List (String × α)} (hkeys : keys xs = keys ys)
    (hnodup : (keys xs).Nodup) (h : ∀ key, xs.lookup key = ys.lookup key) : xs = ys := by
  induction xs generalizing ys with
  | nil =>
    cases ys with
    | nil => rfl
    | cons y ys => simp at hkeys
  | cons x xs ih =>
    cases ys with
    | nil => simp at hkeys
    | cons y ys =>
      obtain ⟨k, v⟩ := x
      obtain ⟨l, w⟩ := y
      rw [keys_cons, keys_cons, List.cons.injEq] at hkeys
      obtain ⟨hhead, htail⟩ := hkeys
      simp only at hhead
      subst hhead
      rw [keys_cons, List.nodup_cons] at hnodup
      have hv : v = w := by simpa using h k
      have hrest : ∀ key, xs.lookup key = ys.lookup key := by
        intro key
        by_cases hkey : key = k
        · subst hkey
          rw [lookup_eq_none_iff.2 hnodup.1, lookup_eq_none_iff.2 (htail ▸ hnodup.1)]
        · simpa [List.lookup_cons, beq_eq_false_iff_ne.2 hkey] using h key
      rw [hv, ih htail hnodup.2 hrest]

theorem lookup_map {β : Type} (f : α → β) (key : String) (entries : List (String × α)) :
    (entries.map fun entry => (entry.1, f entry.2)).lookup key = (entries.lookup key).map f := by
  induction entries with
  | nil => rfl
  | cons entry entries ih =>
    obtain ⟨k, v⟩ := entry
    by_cases h : key = k
    · simp [h]
    · simpa [List.lookup_cons, beq_eq_false_iff_ne.2 h] using ih

/-- Of two values written under one key the second stays. -/
@[simp] theorem insert_insert (key : String) (first second : α) (entries : List (String × α)) :
    insert key second (insert key first entries) = insert key second entries := by
  induction entries with
  | nil => simp [insert]
  | cons entry entries ih =>
    by_cases h : entry.1 = key
    · simp [insert, h]
    · simp [insert, h, ih]

/-- Writing what is there already changes nothing. -/
theorem insert_of_lookup {key : String} {value : α} {entries : List (String × α)}
    (h : entries.lookup key = some value) : insert key value entries = entries := by
  induction entries with
  | nil => simp at h
  | cons entry entries ih =>
    obtain ⟨k, v⟩ := entry
    by_cases hk : key = k
    · subst hk
      simp only [List.lookup_cons_self, Option.some.injEq] at h
      simp [insert, h]
    · rw [List.lookup_cons, beq_eq_false_iff_ne.2 hk] at h
      simp [insert, Ne.symm hk, ih h]

example : insert "b" 3 [("b", 1), ("a", 2)] = [("b", 3), ("a", 2)] := by decide

end TaskRevision.Keyed
