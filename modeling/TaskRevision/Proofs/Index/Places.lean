import Mathlib.Data.List.Induction
import TaskRevision.Editor
/-!
# Places of names

An edit of a named entry goes to the position that the index has for the name.  Here the index is
taken out of the picture: the positions that it builds from a list lead to the last item that carries
the name, so that writing at the position found is the same as looking for that item from behind.

* `overwriteLast?` — writes into the last item of a name, by looking at the items only;
* `bind_overwrite?` — **looking up and writing at the position found is `overwriteLast?`**;
* `ofNames_namesOf_overwriteLast?`, `ofNames_namesOf_append`, `ofNames_keysOf_insert` — what an edit
  does to the positions that the index would build anew: nothing if the name was there, one more
  position if it was not.
-/

namespace TaskRevision

open Json (Value Members)

namespace Container

/-! ## Names of items -/

theorem object_of_nameOf? {v : Value} {name : String} (h : nameOf? v = some name) :
    ∃ members, v = .object members := by
  cases v <;> simp [nameOf?, Value.get?] at h
  exact ⟨_, rfl⟩

/-- The value with a text under `key`, if it is an object. -/
def written (key value : String) : Value → Value
  | .object members => .object (Keyed.insert key (.string value) members)
  | v => v

@[simp] theorem written_written (key first second : String) (v : Value) :
    written key second (written key first v) = written key second v := by
  cases v <;> simp [written]

theorem nameOf?_written {key : String} (hkey : key ≠ nameKey) (value : String) (v : Value) :
    nameOf? (written key value v) = nameOf? v := by
  cases v with
  | object members =>
      simp only [written, nameOf?, Value.get?]
      rw [Keyed.lookup_insert_of_ne _ _ (Ne.symm hkey)]
  | _ => rfl

@[simp] theorem nameOf?_namedEntry (name key value : String) :
    nameOf? (namedEntry name key value) = some name := by
  simp [nameOf?, namedEntry, Value.get?, Value.string?]

/-- A new entry that is written again is a new entry with the second text. -/
theorem written_namedEntry {key : String} (hkey : key ≠ nameKey) (name first second : String) :
    written key second (namedEntry name key first) = namedEntry name key second := by
  simp [written, namedEntry, Keyed.insert, Ne.symm hkey]

/-! ## Names of lists, keys of objects -/

theorem namesOf_eq (items : List Value) :
    namesOf items
      = (items.map nameOf?).zipIdx.filterMap fun entry => entry.1.map fun name => (entry.2, name) := by
  rw [namesOf, List.zipIdx_map, List.filterMap_map]
  rfl

theorem namesOf_append_of_some {item : Value} {name : String} (items : List Value)
    (h : nameOf? item = some name) :
    namesOf (items ++ [item]) = namesOf items ++ [(items.length, name)] := by
  simp [namesOf, List.zipIdx_append, h]

theorem namesOf_append_of_none {item : Value} (items : List Value) (h : nameOf? item = none) :
    namesOf (items ++ [item]) = namesOf items := by
  simp [namesOf, List.zipIdx_append, h]

theorem keysOf_eq (members : Members) :
    keysOf members = (Keyed.keys members).zipIdx.map fun entry => (entry.2, entry.1) := by
  rw [keysOf, Keyed.keys, List.zipIdx_map, List.map_map]
  rfl

theorem keysOf_append (members : Members) (key : String) (v : Value) :
    keysOf (members ++ [(key, v)]) = keysOf members ++ [(members.length, key)] := by
  simp [keysOf, List.zipIdx_append]

end Container

open Container

theorem Positions.ofNames_append (names : List (Nat × String)) (position : Nat) (name : String) :
    Positions.ofNames (names ++ [(position, name)])
      = Keyed.insert name position (Positions.ofNames names) := by
  rw [Positions.ofNames, List.foldl_append]
  rfl

/-! ## Looking up -/

/-- A position found for a name is one at which the name was entered. -/
theorem mem_of_lookup_ofNames {names : List (Nat × String)} {name : String} {position : Nat}
    (h : (Positions.ofNames names).lookup name = some position) : (position, name) ∈ names := by
  induction names using List.reverseRecOn with
  | nil => simp [Positions.ofNames] at h
  | append_singleton names entry ih =>
      rw [Positions.ofNames_append] at h
      by_cases hname : name = entry.2
      · subst hname
        rw [Keyed.lookup_insert_self, Option.some.injEq] at h
        subst h
        exact List.mem_append_right _ (List.mem_singleton_self _)
      · rw [Keyed.lookup_insert_of_ne _ _ hname] at h
        exact List.mem_append_left _ (ih h)

theorem lookup_ofNames_eq_none_iff {names : List (Nat × String)} {name : String} :
    (Positions.ofNames names).lookup name = none ↔ ∀ position, (position, name) ∉ names := by
  constructor
  · intro h position hmem
    induction names using List.reverseRecOn with
    | nil => simp at hmem
    | append_singleton names entry ih =>
        rw [Positions.ofNames_append] at h
        by_cases hname : name = entry.2
        · subst hname
          rw [Keyed.lookup_insert_self] at h
          cases h
        · rw [Keyed.lookup_insert_of_ne _ _ hname] at h
          rcases List.mem_append.1 hmem with hmem | hmem
          · exact ih h hmem
          · rw [List.mem_singleton] at hmem
            exact hname (congrArg Prod.snd hmem)
  · intro h
    cases hfound : (Positions.ofNames names).lookup name with
    | none => rfl
    | some position => exact absurd (mem_of_lookup_ofNames hfound) (h position)

theorem mem_namesOf {items : List Value} {name : String} {position : Nat} :
    (position, name) ∈ namesOf items
      ↔ ∃ item, items[position]? = some item ∧ nameOf? item = some name := by
  simp only [namesOf, List.mem_filterMap, Option.map_eq_some_iff, Prod.mk.injEq]
  constructor
  · rintro ⟨⟨item, q⟩, hmem, found, hname, rfl, rfl⟩
    exact ⟨item, List.mem_zipIdx_iff_getElem?.1 hmem, hname⟩
  · rintro ⟨item, hitem, hname⟩
    exact ⟨(item, position), List.mem_zipIdx_iff_getElem?.2 hitem, name, hname, rfl, rfl⟩

theorem mem_keysOf {members : Members} {key : String} {position : Nat} :
    (position, key) ∈ keysOf members ↔ ∃ v, members[position]? = some (key, v) := by
  simp only [keysOf, List.mem_map, Prod.mk.injEq]
  constructor
  · rintro ⟨⟨⟨k, v⟩, q⟩, hmem, rfl, rfl⟩
    exact ⟨v, List.mem_zipIdx_iff_getElem?.1 hmem⟩
  · rintro ⟨v, hv⟩
    exact ⟨((key, v), position), List.mem_zipIdx_iff_getElem?.2 hv, rfl, rfl⟩

/-- What stands at the position found for a name is an object that carries it. -/
theorem object_of_lookup {items : List Value} {name : String} {position : Nat}
    (h : (Positions.ofNames (namesOf items)).lookup name = some position) :
    ∃ members, items[position]? = some (.object members) ∧ nameOf? (.object members) = some name := by
  obtain ⟨item, hitem, hname⟩ := mem_namesOf.1 (mem_of_lookup_ofNames h)
  obtain ⟨members, rfl⟩ := object_of_nameOf? hname
  exact ⟨members, hitem, hname⟩

/-! ## Writing into the last item of a name -/

/-- The items with a text under `key` in the last one that carries `name`, if any does. -/
def overwriteLast? (name key value : String) : List Value → Option (List Value)
  | [] => none
  | item :: items =>
      match overwriteLast? name key value items with
      | some items => some (item :: items)
      | none => if nameOf? item = some name then some (written key value item :: items) else none

/-- The last of all is written into if it carries the name. -/
theorem overwriteLast?_append_self {name : String} {item : Value} (key value : String)
    (items : List Value) (h : nameOf? item = some name) :
    overwriteLast? name key value (items ++ [item]) = some (items ++ [written key value item]) := by
  induction items with
  | nil => simp [overwriteLast?, h]
  | cons first items ih => simp [overwriteLast?, ih]

theorem overwriteLast?_append {name : String} (key value : String) (items : List Value)
    {others : List Value} (h : ∀ item ∈ others, nameOf? item ≠ some name) :
    overwriteLast? name key value (items ++ others)
      = (overwriteLast? name key value items).map (· ++ others) := by
  induction items with
  | nil =>
      induction others with
      | nil => rfl
      | cons item others ih =>
          have hothers := ih fun other hother => h other (List.mem_cons_of_mem _ hother)
          have hitem := h item (List.mem_cons_self ..)
          simp only [List.nil_append, overwriteLast?, Option.map_none] at hothers ⊢
          rw [hothers]
          simp [hitem]
  | cons first items ih =>
      simp only [List.cons_append, overwriteLast?, ih]
      cases overwriteLast? name key value items with
      | some items => rfl
      | none => by_cases hfirst : nameOf? first = some name <;> simp [hfirst]

theorem overwriteLast?_eq_none_iff {name key value : String} {items : List Value} :
    overwriteLast? name key value items = none ↔ ∀ item ∈ items, nameOf? item ≠ some name := by
  induction items with
  | nil => simp [overwriteLast?]
  | cons item items ih =>
      rw [List.forall_mem_cons, ← ih, overwriteLast?]
      cases overwriteLast? name key value items <;> simp

theorem overwrite?_append {items : List Value} {position : Nat} (key value : String) (item : Value)
    (h : position < items.length) :
    overwrite? (items ++ [item]) key value position
      = (overwrite? items key value position).map (· ++ [item]) := by
  simp only [overwrite?, List.getElem?_append_left h, List.set_append_left _ _ h]
  split <;> rfl

/-- **Writing at the position found for a name is writing into the last item that carries it.** -/
theorem bind_overwrite? (name key value : String) (items : List Value) :
    ((Positions.ofNames (namesOf items)).lookup name).bind (overwrite? items key value)
      = overwriteLast? name key value items := by
  induction items using List.reverseRecOn with
  | nil => rfl
  | append_singleton items item ih =>
      have earlier : ((Positions.ofNames (namesOf items)).lookup name).bind
          (overwrite? (items ++ [item]) key value)
            = (overwriteLast? name key value items).map (· ++ [item]) := by
        rw [← ih]
        cases hfound : (Positions.ofNames (namesOf items)).lookup name with
        | none => rfl
        | some position =>
            obtain ⟨found, hget, -⟩ := object_of_lookup hfound
            obtain ⟨hlt, -⟩ := List.getElem?_eq_some_iff.1 hget
            exact overwrite?_append key value item hlt
      cases hitem : nameOf? item with
      | none =>
          rw [namesOf_append_of_none items hitem, earlier,
            overwriteLast?_append key value items (by simp [hitem])]
      | some last =>
          rw [namesOf_append_of_some items hitem, Positions.ofNames_append]
          by_cases hlast : name = last
          · subst hlast
            obtain ⟨members, rfl⟩ := object_of_nameOf? hitem
            rw [Keyed.lookup_insert_self, overwriteLast?_append_self key value items hitem]
            simp [overwrite?, written]
          · rw [Keyed.lookup_insert_of_ne _ _ hlast, earlier,
              overwriteLast?_append key value items (by simp [hitem, Ne.symm hlast])]

/-! ## Positions after an edit -/

/-- Writing into an item beside its name changes no name. -/
theorem map_nameOf?_overwriteLast? {name key value : String} (hkey : key ≠ nameKey)
    {items items' : List Value} (h : overwriteLast? name key value items = some items') :
    items'.map nameOf? = items.map nameOf? := by
  induction items generalizing items' with
  | nil => simp [overwriteLast?] at h
  | cons item items ih =>
      rw [overwriteLast?] at h
      split at h
      · next rest hrest =>
        cases h
        simp [ih hrest]
      · split at h
        · cases h
          simp [nameOf?_written hkey]
        · cases h

/-- A name that was there keeps all positions. -/
theorem ofNames_namesOf_overwriteLast? {name key value : String} (hkey : key ≠ nameKey)
    {items items' : List Value} (h : overwriteLast? name key value items = some items') :
    Positions.ofNames (namesOf items') = Positions.ofNames (namesOf items) := by
  rw [namesOf_eq, map_nameOf?_overwriteLast? hkey h, ← namesOf_eq]

/-- A new name is found behind all others. -/
theorem ofNames_namesOf_append (name key value : String) (items : List Value) :
    Positions.ofNames (namesOf (items ++ [namedEntry name key value]))
      = Keyed.insert name items.length (Positions.ofNames (namesOf items)) := by
  rw [namesOf_append_of_some items (nameOf?_namedEntry name key value), Positions.ofNames_append]

/-- A docker label keeps its position if it was there, and is found behind all others if not. -/
theorem ofNames_keysOf_insert (key : String) (v : Value) (labels : Members) :
    Positions.ofNames (keysOf (Keyed.insert key v labels))
      = match (Positions.ofNames (keysOf labels)).lookup key with
        | some _ => Positions.ofNames (keysOf labels)
        | none => Keyed.insert key labels.length (Positions.ofNames (keysOf labels)) := by
  cases hfound : (Positions.ofNames (keysOf labels)).lookup key with
  | some position =>
      obtain ⟨w, hw⟩ := mem_keysOf.1 (mem_of_lookup_ofNames hfound)
      have hkey : key ∈ Keyed.keys labels := List.mem_map.2 ⟨_, List.mem_of_getElem? hw, rfl⟩
      rw [keysOf_eq, Keyed.keys_insert_of_mem v hkey, ← keysOf_eq]
  | none =>
      have hkey : key ∉ Keyed.keys labels := by
        intro hmem
        obtain ⟨⟨k, w⟩, hw, rfl⟩ := List.mem_map.1 hmem
        obtain ⟨position, hposition⟩ := List.mem_iff_getElem?.1 hw
        exact lookup_ofNames_eq_none_iff.1 hfound position (mem_keysOf.2 ⟨w, hposition⟩)
      rw [Keyed.insert_of_not_mem v hkey, keysOf_append, Positions.ofNames_append]

end TaskRevision
