import Mathlib.Data.List.Nodup
import TaskRevision.Container.Index
/-!
# Which containers can be indexed

An index can be built exactly of containers that all have a name, none of them empty and no two the
same (`WellNamed`).  It holds one entry for each container, in their order, and the entry found under
a name is that of the container of this name (`get?_of_build`).
-/

namespace TaskRevision

/-! ## Names of containers -/

/-- All containers have names that are not empty, and no two have the same. -/
structure Container.WellNamed (containers : List Container) : Prop where
  /-- Each container has a name. -/
  named : ∀ c ∈ containers, ∃ name, c.name? = some name ∧ name ≠ ""
  /-- No name stands twice. -/
  distinct : (containers.map Container.name?).Nodup

/-- The place of a container is fixed by its name. -/
theorem Container.WellNamed.position_unique {containers : List Container}
    (h : WellNamed containers) {i j : Nat} {c d : Container} (hc : containers[i]? = some c)
    (hd : containers[j]? = some d) (hname : c.name? = d.name?) : i = j := by
  have hnames : (containers.map Container.name?)[i]? = (containers.map Container.name?)[j]? := by
    rw [List.getElem?_map, List.getElem?_map, hc, hd, Option.map_some, Option.map_some, hname]
  have hlt : i < (containers.map Container.name?).length := by
    rw [List.length_map]
    exact (List.getElem?_eq_some_iff.1 hc).1
  exact (List.getElem?_inj hlt h.distinct).1 hnames

namespace Index

/-! ## Entries of fresh containers -/

/-- The entries of containers of which the first is at `position`. -/
def entriesFrom (position : Nat) (containers : List Container) : List (String × Entry) :=
  containers.mapIdx fun i c => (c.name?.getD "", Entry.ofContainer (position + i) c)

theorem entriesFrom_cons (position : Nat) (c : Container) (containers : List Container) :
    entriesFrom position (c :: containers)
      = (c.name?.getD "", Entry.ofContainer position c) :: entriesFrom (position + 1) containers := by
  simp only [entriesFrom, List.mapIdx_cons, Nat.add_zero, Nat.add_assoc, Nat.add_comm 1]

@[simp] theorem keys_entriesFrom (position : Nat) (containers : List Container) :
    Keyed.keys (entriesFrom position containers) = containers.map fun c => c.name?.getD "" := by
  induction containers generalizing position with
  | nil => rfl
  | cons c containers ih => rw [entriesFrom_cons, Keyed.keys_cons, ih, List.map_cons]

/-- Where all containers are named, no name stands twice among the keys of their entries. -/
theorem nodup_keys_entriesFrom {containers : List Container} (h : Container.WellNamed containers)
    (position : Nat) : (Keyed.keys (entriesFrom position containers)).Nodup := by
  rw [keys_entriesFrom]
  have hsome : containers.map Container.name?
      = (containers.map fun c => c.name?.getD "").map some := by
    rw [List.map_map]
    refine List.map_congr_left fun c hc => ?_
    obtain ⟨name, hname, -⟩ := h.named c hc
    simp [hname]
  exact List.Nodup.of_map some (hsome ▸ h.distinct)

/-! ## Building -/

theorem contains_iff {index : Index} {name : String} :
    index.contains name = true ↔ name ∈ Keyed.keys index.entries := by
  rw [contains, get?, Keyed.lookup_isSome_iff]

/-- Containers can be added exactly if they are named and their names are new and distinct; then
their entries come behind those that are there. -/
theorem addFrom_eq_ok_iff {position : Nat} {index result : Index} {containers : List Container} :
    addFrom position index containers = .ok result ↔
      (∀ c ∈ containers, ∃ name, c.name? = some name ∧ name ≠ "" ∧ name ∉ Keyed.keys index.entries) ∧
      (containers.map Container.name?).Nodup ∧
      result.entries = index.entries ++ entriesFrom position containers := by
  induction containers generalizing position index with
  | nil =>
      obtain ⟨entries⟩ := index
      obtain ⟨others⟩ := result
      simp [addFrom, entriesFrom, eq_comm]
  | cons c containers ih =>
      rw [addFrom, List.forall_mem_cons, List.map_cons, List.nodup_cons, entriesFrom_cons]
      cases hname : c.name? with
      | none => simp
      | some name =>
          by_cases hempty : name = ""
          · simp [hempty]
          by_cases hcontains : index.contains name = true
          · simp [hempty, hcontains, contains_iff.1 hcontains]
          · have hnew : name ∉ Keyed.keys index.entries := fun h => hcontains (contains_iff.2 h)
            have hset : (index.set name (.ofContainer position c)).entries
                = index.entries ++ [(name, .ofContainer position c)] :=
              Keyed.insert_of_not_mem _ hnew
            have hkeys : Keyed.keys (index.entries ++ [(name, Entry.ofContainer position c)])
                = Keyed.keys index.entries ++ [name] := by simp [Keyed.keys]
            simp only [hempty, hcontains, if_false, Bool.false_eq_true, ih, hset, hkeys]
            -- a container named anew behind is one whose name is not the one just entered
            simp only [List.mem_append, List.mem_singleton, not_or, Option.getD_some,
              List.append_assoc, List.singleton_append, List.mem_map, not_exists, not_and]
            constructor
            · rintro ⟨hall, hnodup, hentries⟩
              refine ⟨⟨⟨name, rfl, hempty, hnew⟩, fun d hd => ?_⟩, ⟨fun d hd hdname => ?_, hnodup⟩,
                hentries⟩
              · obtain ⟨other, hother, hne, hfresh, -⟩ := hall d hd
                exact ⟨other, hother, hne, hfresh⟩
              · obtain ⟨other, hother, -, -, hdiffers⟩ := hall d hd
                exact hdiffers (Option.some.inj (hother.symm.trans hdname))
            · rintro ⟨⟨-, hall⟩, ⟨hdistinct, hnodup⟩, hentries⟩
              refine ⟨fun d hd => ?_, hnodup, hentries⟩
              obtain ⟨other, hother, hne, hfresh⟩ := hall d hd
              exact ⟨other, hother, hne, hfresh, fun h => hdistinct d hd (h ▸ hother)⟩

/-- **An index can be built exactly of well-named containers.** -/
theorem build_eq_ok_iff {containers : List Container} {index : Index} :
    build containers = .ok index ↔
      Container.WellNamed containers ∧ index.entries = entriesFrom 0 containers := by
  rw [build, addFrom_eq_ok_iff]
  constructor
  · rintro ⟨hall, hnodup, hentries⟩
    refine ⟨⟨fun c hc => ?_, hnodup⟩, hentries⟩
    obtain ⟨name, hname, hne, -⟩ := hall c hc
    exact ⟨name, hname, hne⟩
  · rintro ⟨⟨hall, hnodup⟩, hentries⟩
    refine ⟨fun c hc => ?_, hnodup, hentries⟩
    obtain ⟨name, hname, hne⟩ := hall c hc
    exact ⟨name, hname, hne, by simp⟩

/-- The entry under a name is that of the container of the name. -/
theorem get?_of_build {containers : List Container} {index : Index}
    (h : build containers = .ok index) {name : String} {entry : Entry} :
    index.get? name = some entry ↔
      ∃ i c, containers[i]? = some c ∧ c.name? = some name ∧ entry = .ofContainer i c := by
  obtain ⟨hnamed, hentries⟩ := build_eq_ok_iff.1 h
  rw [get?, hentries, Keyed.lookup_eq_some_iff_mem (nodup_keys_entriesFrom hnamed 0),
    List.mem_iff_getElem?]
  simp only [entriesFrom, List.getElem?_mapIdx, Option.map_eq_some_iff, Prod.mk.injEq, Nat.zero_add]
  constructor
  · rintro ⟨i, c, hc, hname, rfl⟩
    obtain ⟨other, hother, -⟩ := hnamed.named c (List.mem_of_getElem? hc)
    rw [hother, Option.getD_some] at hname
    exact ⟨i, c, hc, hname ▸ hother, rfl⟩
  · rintro ⟨i, c, hc, hname, rfl⟩
    exact ⟨i, c, hc, by rw [hname, Option.getD_some], rfl⟩

end Index

end TaskRevision
