import TaskRevision.Proofs.Editor.Plain
import TaskRevision.Proofs.Settled
/-!
# What a row of edits makes of a list

Written one after the other, edits of a list of named entries come to this (`mergeItems`): of the items
that carry an edited name the last one has the text that was set last, and behind all items stands
one new entry for each edited name that no item carried, in the order of first edits.

* `upsert_cons_of_later`, `upsert_cons_of_last`, `upsert_append` — where an entry is written;
* `upsert_newEntries` — among new entries, an entry is written as in a table;
* `upsert_mergeItems` — **one more edit of the merged list is the list merged with one more edit**;
* `mergeItems_mergeItems` — merging with the same edits once more changes nothing.
-/

namespace TaskRevision

open Json (Value)
open Container

/-- The names that items of a list carry. -/
def namesIn (items : List Value) : List String := items.filterMap nameOf?

theorem mem_namesIn {items : List Value} {name : String} :
    name ∈ namesIn items ↔ ∃ item ∈ items, nameOf? item = some name := List.mem_filterMap

theorem not_mem_namesIn {items : List Value} {name : String} :
    name ∉ namesIn items ↔ ∀ item ∈ items, nameOf? item ≠ some name := by
  rw [mem_namesIn]
  exact ⟨fun h item hitem hname => h ⟨item, hitem, hname⟩,
    fun h ⟨item, hitem, hname⟩ => h item hitem hname⟩

theorem namesIn_cons_of_some {item : Value} {name : String} (items : List Value)
    (h : nameOf? item = some name) : namesIn (item :: items) = name :: namesIn items :=
  List.filterMap_cons_some h

theorem namesIn_cons_of_none {item : Value} (items : List Value) (h : nameOf? item = none) :
    namesIn (item :: items) = namesIn items := List.filterMap_cons_none h

/-! ## Where an entry is written -/

variable {name : String} {item : Value} {items : List Value} (key value : String)

/-- Not here, if an item further behind carries the name. -/
theorem upsert_cons_of_later (item : Value) (h : name ∈ namesIn items) :
    upsert name key value (item :: items) = item :: upsert name key value items := by
  cases hlast : overwriteLast? name key value items with
  | none => exact absurd h (not_mem_namesIn.2 (overwriteLast?_eq_none_iff.1 hlast))
  | some items' => simp [upsert, overwriteLast?, hlast]

/-- Here, if this is the last item that carries the name. -/
theorem upsert_cons_of_last (hitem : nameOf? item = some name) (h : name ∉ namesIn items) :
    upsert name key value (item :: items) = written key value item :: items := by
  have hlast : overwriteLast? name key value items = none :=
    overwriteLast?_eq_none_iff.2 (not_mem_namesIn.1 h)
  simp [upsert, overwriteLast?, hlast, hitem]

/-- Not here, if the item does not carry the name. -/
theorem upsert_cons_of_ne (items : List Value) (hitem : nameOf? item ≠ some name) :
    upsert name key value (item :: items) = item :: upsert name key value items := by
  cases hlast : overwriteLast? name key value items with
  | none => simp [upsert, overwriteLast?, hlast, hitem]
  | some items' => simp [upsert, overwriteLast?, hlast]

/-- Behind, if no item in front carries the name. -/
theorem upsert_append (others : List Value) (h : name ∉ namesIn items) :
    upsert name key value (items ++ others) = items ++ upsert name key value others := by
  rw [not_mem_namesIn] at h
  induction items with
  | nil => rfl
  | cons item items ih =>
      rw [List.forall_mem_cons] at h
      rw [List.cons_append, upsert_cons_of_ne key value _ h.1, ih h.2, List.cons_append]

/-- In front, if some item there carries the name and none behind does. -/
theorem upsert_append_of_mem {others : List Value} (h : name ∈ namesIn items)
    (hothers : name ∉ namesIn others) :
    upsert name key value (items ++ others) = upsert name key value items ++ others := by
  have happend := overwriteLast?_append key value items (not_mem_namesIn.1 hothers)
  cases hlast : overwriteLast? name key value items with
  | none => exact absurd h (not_mem_namesIn.2 (overwriteLast?_eq_none_iff.1 hlast))
  | some items' => simp [upsert, happend, hlast]

/-! ## New entries -/

/-- New entries with the given names and texts. -/
def newEntries (key : String) (entries : List (String × String)) : List Value :=
  entries.map fun entry => namedEntry entry.1 key entry.2

theorem namesIn_newEntries (entries : List (String × String)) :
    namesIn (newEntries key entries) = Keyed.keys entries := by
  induction entries with
  | nil => rfl
  | cons entry entries ih =>
      rw [newEntries, List.map_cons, namesIn_cons_of_some _ (nameOf?_namedEntry ..)]
      exact congrArg _ ih

/-- Among new entries of distinct names an entry is written as in a table. -/
theorem upsert_newEntries {key : String} (hkey : key ≠ nameKey) (name value : String)
    {entries : List (String × String)} (h : (Keyed.keys entries).Nodup) :
    upsert name key value (newEntries key entries)
      = newEntries key (Keyed.insert name value entries) := by
  induction entries with
  | nil => rfl
  | cons entry entries ih =>
      obtain ⟨other, old⟩ := entry
      rw [Keyed.keys_cons, List.nodup_cons] at h
      rw [newEntries, List.map_cons, ← newEntries]
      by_cases hname : other = name
      · subst hname
        have hlast : other ∉ namesIn (newEntries key entries) := by
          rw [namesIn_newEntries]
          exact h.1
        rw [upsert_cons_of_last key value (nameOf?_namedEntry ..) hlast, written_namedEntry hkey]
        simp [Keyed.insert, newEntries]
      · have hother : nameOf? (namedEntry other key old) ≠ some name := by simpa using hname
        rw [upsert_cons_of_ne key value _ hother, ih h.2]
        simp [Keyed.insert, newEntries, hname]

/-! ## Merging -/

/-- An item after edits, where `later` are the items behind it.  Edits of its name go to the last item
that carries it. -/
def mergedItem (key : String) (edits : List (String × String)) (later : List Value) (item : Value) :
    Value :=
  match nameOf? item with
  | none => item
  | some name =>
    if name ∈ namesIn later then item
    else match Keyed.lastValue? edits name with
      | none => item
      | some value => written key value item

/-- The items after edits. -/
def mergedItems (key : String) (edits : List (String × String)) : List Value → List Value
  | [] => []
  | item :: items => mergedItem key edits items item :: mergedItems key edits items

/-- The list after edits: the items, and behind them an entry for each edited name that is new. -/
def mergeItems (key : String) (edits : List (String × String)) (items : List Value) : List Value :=
  mergedItems key edits items
    ++ newEntries key ((Keyed.settled edits).filter fun edit => edit.1 ∉ namesIn items)

theorem mergedItem_nil (later : List Value) (item : Value) : mergedItem key [] later item = item := by
  rw [mergedItem]
  split
  · rfl
  · simp

@[simp] theorem mergeItems_nil (items : List Value) : mergeItems key [] items = items := by
  have hitems : mergedItems key [] items = items := by
    induction items with
    | nil => rfl
    | cons item items ih => rw [mergedItems, mergedItem_nil, ih]
  rw [mergeItems, hitems]
  exact List.append_nil _

section

variable {key : String} (hkey : key ≠ nameKey)
include hkey

theorem nameOf?_mergedItem (edits : List (String × String)) (later : List Value) (item : Value) :
    nameOf? (mergedItem key edits later item) = nameOf? item := by
  unfold mergedItem
  split
  · rfl
  · split
    · rfl
    · split
      · rfl
      · exact nameOf?_written hkey _ item

theorem namesIn_mergedItems (edits : List (String × String)) (items : List Value) :
    namesIn (mergedItems key edits items) = namesIn items := by
  induction items with
  | nil => rfl
  | cons item items ih =>
      have hname := nameOf?_mergedItem hkey edits items item
      rw [mergedItems]
      cases hitem : nameOf? item with
      | none =>
          rw [namesIn_cons_of_none _ (hname.trans hitem), namesIn_cons_of_none _ hitem, ih]
      | some name =>
          rw [namesIn_cons_of_some _ (hname.trans hitem), namesIn_cons_of_some _ hitem, ih]

end

/-- One more edit does not show in an item of another name, nor in one that is not the last of its
name. -/
theorem mergedItem_append (edits : List (String × String)) {later : List Value}
    (h : nameOf? item = some name → name ∈ namesIn later) :
    mergedItem key (edits ++ [(name, value)]) later item = mergedItem key edits later item := by
  unfold mergedItem
  cases hitem : nameOf? item with
  | none => rfl
  | some other =>
      by_cases hlater : other ∈ namesIn later
      · simp only [hlater, if_true]
      · have hne : other ≠ name := by
          rintro rfl
          exact hlater (h hitem)
        simp only [hlater, if_false, Keyed.lastValue?_append, hne]

/-- One more edit of a name that no item carries does not show in the items. -/
theorem mergedItems_append (edits : List (String × String)) (h : name ∉ namesIn items) :
    mergedItems key (edits ++ [(name, value)]) items = mergedItems key edits items := by
  rw [not_mem_namesIn] at h
  induction items with
  | nil => rfl
  | cons item items ih =>
      rw [List.forall_mem_cons] at h
      have hitem : nameOf? item = some name → name ∈ namesIn items := fun hname => absurd hname h.1
      rw [mergedItems, mergedItems, mergedItem_append key value edits hitem, ih h.2]

/-- One more edit of a name that an item carries is written into the last such item. -/
theorem upsert_mergedItems {key : String} (hkey : key ≠ nameKey) (value : String)
    (edits : List (String × String)) (h : name ∈ namesIn items) :
    upsert name key value (mergedItems key edits items)
      = mergedItems key (edits ++ [(name, value)]) items := by
  induction items with
  | nil => cases h
  | cons item items ih =>
      rw [mergedItems, mergedItems]
      by_cases hlater : name ∈ namesIn items
      · have hbehind : name ∈ namesIn (mergedItems key edits items) := by
          rwa [namesIn_mergedItems hkey]
        rw [upsert_cons_of_later key value _ hbehind, ih hlater,
          mergedItem_append key value edits fun _ => hlater]
      · -- the name is carried, and by no item behind
        have hitem : nameOf? item = some name := by
          obtain ⟨carrier, hcarrier, hname⟩ := mem_namesIn.1 h
          rcases List.mem_cons.1 hcarrier with rfl | hcarrier
          · exact hname
          · exact absurd (mem_namesIn.2 ⟨carrier, hcarrier, hname⟩) hlater
        have hhere : nameOf? (mergedItem key edits items item) = some name := by
          rw [nameOf?_mergedItem hkey, hitem]
        have hbehind : name ∉ namesIn (mergedItems key edits items) := by
          rwa [namesIn_mergedItems hkey]
        rw [upsert_cons_of_last key value hhere hbehind, mergedItems_append key value edits hlater]
        have hwritten : written key value (mergedItem key edits items item)
            = mergedItem key (edits ++ [(name, value)]) items item := by
          simp only [mergedItem, hitem, hlater, if_false, Keyed.lastValue?_append, if_true]
          cases Keyed.lastValue? edits name with
          | none => rfl
          | some old => exact written_written key old value item
        rw [hwritten]

/-- **One more edit of the merged list is the list merged with one more edit.** -/
theorem upsert_mergeItems {key : String} (hkey : key ≠ nameKey) (edits : List (String × String))
    (name value : String) (items : List Value) :
    upsert name key value (mergeItems key edits items)
      = mergeItems key (edits ++ [(name, value)]) items := by
  have hfilter := Keyed.filter_insert (fun other => decide (other ∉ namesIn items)) name value
    (Keyed.settled edits)
  rw [mergeItems, mergeItems, Keyed.settled_append, hfilter]
  by_cases h : name ∈ namesIn items
  · have hnew : name ∉ namesIn (newEntries key
        ((Keyed.settled edits).filter fun edit => edit.1 ∉ namesIn items)) := by
      rw [namesIn_newEntries]
      intro hmem
      obtain ⟨edit, hedit, rfl⟩ := List.mem_map.1 hmem
      simp [h] at hedit
    have hold : name ∈ namesIn (mergedItems key edits items) := by rwa [namesIn_mergedItems hkey]
    rw [upsert_append_of_mem key value hold hnew, upsert_mergedItems hkey value edits h,
      if_neg (by simpa using h)]
  · have hold : name ∉ namesIn (mergedItems key edits items) := by rwa [namesIn_mergedItems hkey]
    have hnodup : (Keyed.keys
        ((Keyed.settled edits).filter fun edit => edit.1 ∉ namesIn items)).Nodup :=
      (Keyed.nodup_keys_settled edits).sublist (List.filter_sublist.map _)
    rw [upsert_append key value _ hold, upsert_newEntries hkey name value hnodup,
      mergedItems_append key value edits h, if_pos (by simpa using h)]

example : mergeItems "value" [("B", "2"), ("A", "1"), ("B", "3")]
      [namedEntry "A" "value" "0", .null, namedEntry "A" "value" "0"]
    = [namedEntry "A" "value" "0", .null, namedEntry "A" "value" "1",
      namedEntry "B" "value" "3"] := rfl

/-! ## The same edits once more -/

theorem namesIn_append (items others : List Value) :
    namesIn (items ++ others) = namesIn items ++ namesIn others := List.filterMap_append ..

section

variable {key : String} (hkey : key ≠ nameKey)
include hkey

/-- An item that has been edited stays as it is, if items of its name still stand behind it or still do
not. -/
theorem mergedItem_mergedItem (edits : List (String × String)) {later later' : List Value}
    {item : Value}
    (h : ∀ name, nameOf? item = some name → (name ∈ namesIn later' ↔ name ∈ namesIn later)) :
    mergedItem key edits later' (mergedItem key edits later item) = mergedItem key edits later item := by
  have hname := nameOf?_mergedItem hkey edits later item
  cases hitem : nameOf? item with
  | none => simp only [mergedItem, hitem]
  | some name =>
      rw [hitem] at hname
      by_cases hlater : name ∈ namesIn later
      · have hlater' := (h name hitem).2 hlater
        simp only [mergedItem, hitem, hlater, hlater', if_true]
      · have hlater' := mt (h name hitem).1 hlater
        rw [mergedItem, hname]
        simp only [mergedItem, hitem, hlater, hlater', if_false]
        cases Keyed.lastValue? edits name with
        | none => rfl
        | some value => exact written_written key value value item

theorem mergedItems_newEntries {edits entries : List (String × String)}
    (hnodup : (Keyed.keys entries).Nodup)
    (hlast : ∀ entry ∈ entries, Keyed.lastValue? edits entry.1 = some entry.2) :
    mergedItems key edits (newEntries key entries) = newEntries key entries := by
  induction entries with
  | nil => rfl
  | cons entry entries ih =>
      rw [Keyed.keys_cons, List.nodup_cons] at hnodup
      rw [List.forall_mem_cons] at hlast
      have hlater : entry.1 ∉ namesIn (newEntries key entries) := by
        rw [namesIn_newEntries]
        exact hnodup.1
      have hentry : mergedItem key edits (newEntries key entries) (namedEntry entry.1 key entry.2)
          = namedEntry entry.1 key entry.2 := by
        simp only [mergedItem, nameOf?_namedEntry, hlater, if_false, hlast.1]
        exact written_namedEntry hkey entry.1 entry.2 entry.2
      have hrest := ih hnodup.2 hlast.2
      rw [newEntries] at hentry hrest ⊢
      rw [List.map_cons, mergedItems, hentry, hrest]

theorem mergedItems_append_newEntries {edits entries : List (String × String)} {items : List Value}
    (hnodup : (Keyed.keys entries).Nodup)
    (hlast : ∀ entry ∈ entries, Keyed.lastValue? edits entry.1 = some entry.2)
    (hnew : ∀ name ∈ namesIn items, name ∉ Keyed.keys entries) :
    mergedItems key edits (mergedItems key edits items ++ newEntries key entries)
      = mergedItems key edits items ++ newEntries key entries := by
  induction items with
  | nil => exact mergedItems_newEntries hkey hnodup hlast
  | cons item items ih =>
      have hbehind : ∀ name, nameOf? item = some name →
          (name ∈ namesIn (mergedItems key edits items ++ newEntries key entries)
            ↔ name ∈ namesIn items) := by
        intro name hname
        have hmem : name ∈ namesIn (item :: items) := by
          rw [namesIn_cons_of_some _ hname]
          exact List.mem_cons_self ..
        rw [namesIn_append, namesIn_mergedItems hkey, namesIn_newEntries, List.mem_append]
        exact or_iff_left (hnew name hmem)
      have hrest : ∀ name ∈ namesIn items, name ∉ Keyed.keys entries := by
        intro name hmem
        obtain ⟨carrier, hcarrier, hname⟩ := mem_namesIn.1 hmem
        exact hnew name (mem_namesIn.2 ⟨carrier, List.mem_cons_of_mem _ hcarrier, hname⟩)
      rw [mergedItems, List.cons_append, mergedItems, mergedItem_mergedItem hkey edits hbehind,
        ih hrest]

/-- **Merging with the same edits once more changes nothing.** -/
theorem mergeItems_mergeItems (edits : List (String × String)) (items : List Value) :
    mergeItems key edits (mergeItems key edits items) = mergeItems key edits items := by
  have hnodup : (Keyed.keys
      ((Keyed.settled edits).filter fun edit => edit.1 ∉ namesIn items)).Nodup :=
    (Keyed.nodup_keys_settled edits).sublist (List.filter_sublist.map _)
  have hlast : ∀ edit ∈ (Keyed.settled edits).filter fun edit => edit.1 ∉ namesIn items,
      Keyed.lastValue? edits edit.1 = some edit.2 := by
    intro edit hedit
    exact Keyed.mem_settled_iff.1 (List.mem_filter.1 hedit).1
  have hnew : ∀ name ∈ namesIn items, name ∉ Keyed.keys
      ((Keyed.settled edits).filter fun edit => edit.1 ∉ namesIn items) := by
    intro name hmem hkeys
    obtain ⟨edit, hedit, rfl⟩ := List.mem_map.1 hkeys
    exact of_decide_eq_true (List.mem_filter.1 hedit).2 hmem
  -- every edited name is carried by now, so that nothing is new
  have hnone : ((Keyed.settled edits).filter fun edit =>
      edit.1 ∉ namesIn (mergeItems key edits items)) = [] := by
    refine List.filter_eq_nil_iff.2 fun edit hedit => ?_
    rw [mergeItems, namesIn_append, namesIn_mergedItems hkey, namesIn_newEntries, decide_eq_true_iff,
      not_not, List.mem_append]
    by_cases hcarried : edit.1 ∈ namesIn items
    · exact .inl hcarried
    · refine .inr (List.mem_map.2 ⟨edit, List.mem_filter.2 ⟨hedit, ?_⟩, rfl⟩)
      exact decide_eq_true hcarried
  rw [mergeItems, hnone, mergeItems]
  exact (List.append_nil _).trans (mergedItems_append_newEntries hkey hnodup hlast hnew)

end

end TaskRevision
