import TaskRevision.Proofs.Container.Fields
import TaskRevision.Proofs.Index.Build
import TaskRevision.Proofs.Index.Places
/-!
# What building an index finds

Building goes through the containers once and fills the index as it goes.  What it comes to can be said
without the loop: either all containers are well named, and then the index describes each of them in full
(`Entry.Describes`), or there is a first container with a fault in its name, and then that fault is told
(`FirstFault`).

* `lookup_ofNames_eq_some_iff` — the position that is kept for a name is its last one;
* `describes_ofContainer` — the entry of a container says of it what is so;
* `Added.set` — what one more container does while the index is filled;
* `firstFault_of_addFrom` — **building stops at the first fault**;
* `indexed_build` — both cases together.
-/

namespace TaskRevision

open Json (Value Members)
open Update (Kind)
open Container (Listing nameOf? namesOf keysOf)

/-! ## Last positions -/

/-- The position is the last one at which something stands that has the property. -/
structure IsLastAt {α : Type} (p : α → Prop) (xs : List α) (n : Nat) : Prop where
  /-- Something that has the property stands there. -/
  found : ∃ x, xs[n]? = some x ∧ p x
  /-- Nothing behind it has the property. -/
  last : ∀ m x, n < m → xs[m]? = some x → ¬ p x

/-- Where names are entered from the front to the back, the position kept for a name is its last one. -/
theorem lookup_ofNames_eq_some_iff {names : List (Nat × String)}
    (h : names.Pairwise fun first second => first.1 < second.1) {name : String} {n : Nat} :
    (Positions.ofNames names).lookup name = some n ↔
      (n, name) ∈ names ∧ ∀ m, (m, name) ∈ names → m ≤ n := by
  induction names using List.reverseRecOn with
  | nil => simp [Positions.ofNames]
  | append_singleton names entry ih =>
      obtain ⟨position, other⟩ := entry
      obtain ⟨hnames, -, hlast⟩ := List.pairwise_append.1 h
      have hbefore : ∀ m k, (m, k) ∈ names → m < position := fun m k hmem =>
        hlast (m, k) hmem (position, other) (List.mem_singleton_self _)
      rw [Positions.ofNames_append]
      by_cases hname : name = other
      · subst hname
        rw [Keyed.lookup_insert_self, Option.some.injEq]
        constructor
        · rintro rfl
          refine ⟨by simp, fun m hm => ?_⟩
          rcases List.mem_append.1 hm with hm | hm
          · exact Nat.le_of_lt (hbefore m name hm)
          · simp only [List.mem_singleton, Prod.mk.injEq, and_true] at hm
            exact Nat.le_of_eq hm
        · rintro ⟨hmem, hmax⟩
          have hle : position ≤ n := hmax position (by simp)
          rcases List.mem_append.1 hmem with hmem | hmem
          · exact absurd (hbefore n name hmem) (by omega)
          · simp only [List.mem_singleton, Prod.mk.injEq, and_true] at hmem
            exact hmem.symm
      · rw [Keyed.lookup_insert_of_ne _ _ hname, ih hnames]
        simp [hname]

theorem pairwise_namesOf (items : List Value) :
    (namesOf items).Pairwise fun first second => first.1 < second.1 := by
  have hpositions : items.zipIdx.Pairwise fun first second => first.2 < second.2 := by
    rw [← List.pairwise_map (f := Prod.snd), List.zipIdx_map_snd]
    exact List.pairwise_lt_range'
  refine List.Pairwise.filterMap _ ?_ hpositions
  rintro ⟨item, m⟩ ⟨item', n⟩ hlt entry hentry entry' hentry'
  obtain ⟨name, -, rfl⟩ := Option.map_eq_some_iff.1 hentry
  obtain ⟨name', -, rfl⟩ := Option.map_eq_some_iff.1 hentry'
  exact hlt

theorem pairwise_keysOf (members : Members) :
    (keysOf members).Pairwise fun first second => first.1 < second.1 := by
  rw [keysOf, List.pairwise_map, ← List.pairwise_map (f := Prod.snd), List.zipIdx_map_snd]
  exact List.pairwise_lt_range'

/-- The value is an object with the name as a text under `name`. -/
def Carries (name : String) (v : Value) : Prop :=
  ∃ members, v = .object members ∧ members.lookup Container.nameKey = some (.string name)

theorem nameOf?_eq_some_iff {v : Value} {name : String} : nameOf? v = some name ↔ Carries name v := by
  constructor
  · intro h
    obtain ⟨members, rfl⟩ := Container.object_of_nameOf? h
    obtain ⟨text, hget, htext⟩ := Option.bind_eq_some_iff.1 h
    cases text <;> cases htext
    exact ⟨members, rfl, hget⟩
  · rintro ⟨members, rfl, hget⟩
    exact Option.bind_eq_some_iff.2 ⟨.string name, hget, rfl⟩

/-- The position kept for a name of a list is that of the last item that carries it. -/
theorem lookup_ofNames_namesOf {items : List Value} {name : String} {n : Nat} :
    (Positions.ofNames (namesOf items)).lookup name = some n ↔ IsLastAt (Carries name) items n := by
  rw [lookup_ofNames_eq_some_iff (pairwise_namesOf items)]
  simp only [mem_namesOf, nameOf?_eq_some_iff]
  constructor
  · rintro ⟨hfound, hmax⟩
    refine ⟨hfound, fun m x hlt hx hname => ?_⟩
    exact absurd (hmax m ⟨x, hx, hname⟩) (Nat.not_le_of_lt hlt)
  · rintro ⟨hfound, hlast⟩
    refine ⟨hfound, fun m ⟨x, hx, hname⟩ => ?_⟩
    exact Nat.le_of_not_lt fun hlt => hlast m x hlt hx hname

/-- The position kept for a key of an object is that of the last member under it. -/
theorem lookup_ofNames_keysOf {members : Members} {key : String} {n : Nat} :
    (Positions.ofNames (keysOf members)).lookup key = some n ↔
      IsLastAt (fun member => member.1 = key) members n := by
  rw [lookup_ofNames_eq_some_iff (pairwise_keysOf members)]
  simp only [mem_keysOf]
  constructor
  · rintro ⟨⟨v, hv⟩, hmax⟩
    refine ⟨⟨_, hv, rfl⟩, ?_⟩
    rintro m ⟨other, w⟩ hlt hw rfl
    exact absurd (hmax m ⟨w, hw⟩) (Nat.not_le_of_lt hlt)
  · rintro ⟨⟨⟨other, v⟩, hv, rfl⟩, hlast⟩
    refine ⟨⟨v, hv⟩, fun m ⟨w, hw⟩ => ?_⟩
    exact Nat.le_of_not_lt fun hlt => hlast m _ hlt hw rfl

/-- Where no key stands twice, the last member under a key is the only one. -/
theorem isLastAt_key_iff {members : Members} (h : (Keyed.keys members).Nodup) {key : String} {n : Nat} :
    IsLastAt (fun member => member.1 = key) members n ↔ (Keyed.keys members)[n]? = some key := by
  rw [Keyed.keys, List.getElem?_map, Option.map_eq_some_iff]
  refine ⟨IsLastAt.found, fun hfound => ⟨hfound, fun m other hlt hother hkey => ?_⟩⟩
  obtain ⟨member, hmember, hmemberKey⟩ := hfound
  have hsame : (Keyed.keys members)[n]? = (Keyed.keys members)[m]? := by
    rw [Keyed.keys, List.getElem?_map, List.getElem?_map, hmember, hother, Option.map_some,
      Option.map_some, hmemberKey, hkey]
  have hlength : n < (Keyed.keys members).length := by
    rw [Keyed.keys, List.length_map]
    exact (List.getElem?_eq_some_iff.1 hmember).1
  exact absurd ((List.getElem?_inj hlength h).1 hsame) (Nat.ne_of_lt hlt)

/-! ## Entries -/

/-- The entry says of the container, which stands at the position, what is so. -/
structure Entry.Describes (entry : Entry) (position : Nat) (c : Container) : Prop where
  /-- The position is that of the container. -/
  position : entry.position = position
  /-- The image is the text in its field, and there is none if no text stands there. -/
  image : ∀ image : String,
    entry.image = some image ↔ c.get? Container.imageField = some (.string image)
  /-- A name of a list leads to the last item that carries it, and no other name leads anywhere. -/
  listed : ∀ (listing : Listing) (name : String) (n : Nat),
    (entry.positions listing).lookup name = some n ↔
      ∃ items, c.get? listing.field = some (.array items) ∧ IsLastAt (Carries name) items n
  /-- A key of the docker labels leads to the last label under it, and no other key leads anywhere. -/
  labelled : ∀ (key : String) (n : Nat), entry.dockerLabels.lookup key = some n ↔
    ∃ labels, c.get? Container.labelsField = some (.object labels) ∧
      IsLastAt (fun label => label.1 = key) labels n
  /-- In an object that has no key twice, as all that are read, each key leads to its only place. -/
  ordered : ∀ labels : Members, c.get? Container.labelsField = some (.object labels) →
    (Keyed.keys labels).Nodup → ∀ (key : String) (n : Nat),
    entry.dockerLabels.lookup key = some n ↔ (Keyed.keys labels)[n]? = some key

theorem lookup_ofNames_namedEntries {c : Container} {field name : String} {n : Nat} :
    (Positions.ofNames (c.namedEntries field)).lookup name = some n ↔
      ∃ items, c.get? field = some (.array items) ∧ IsLastAt (Carries name) items n := by
  rw [Container.namedEntries]
  cases c.get? field with
  | none => simp [Positions.ofNames]
  | some v => cases v <;> simp [Positions.ofNames, Value.array?, ← lookup_ofNames_namesOf]

theorem lookup_ofNames_labelKeys {c : Container} {key : String} {n : Nat} :
    (Positions.ofNames c.labelKeys).lookup key = some n ↔
      ∃ labels, c.get? Container.labelsField = some (.object labels) ∧
        IsLastAt (fun label => label.1 = key) labels n := by
  rw [Container.labelKeys]
  cases c.get? Container.labelsField with
  | none => simp [Positions.ofNames]
  | some v => cases v <;> simp [Positions.ofNames, Value.object?, ← lookup_ofNames_keysOf]

/-- The entry of a container says of it what is so. -/
theorem describes_ofContainer (position : Nat) (c : Container) :
    (Entry.ofContainer position c).Describes position c where
  position := rfl
  image _ := Container.image?_eq_some_iff
  listed listing name n := by
    cases listing <;> exact lookup_ofNames_namedEntries
  labelled _ _ := lookup_ofNames_labelKeys
  ordered labels hlabels hnodup key n := by
    have hlookup : (Entry.ofContainer position c).dockerLabels.lookup key = some n ↔ _ :=
      lookup_ofNames_labelKeys
    rw [hlookup, hlabels, ← isLastAt_key_iff hnodup]
    simp

namespace Index

/-! ## Faults in names -/

/-- The container at the position has a fault in its name. -/
inductive Faulty (containers : List Container) (p : Nat) : Problem → Prop
  /-- It has no name that is a text with anything in it. -/
  | empty {c : Container} : containers[p]? = some c → (∀ name, c.name? = some name → name = "") →
      Faulty containers p (.emptyName p)
  /-- It has the name of a container before it. -/
  | repeated {c d : Container} {q : Nat} {name : String} : containers[p]? = some c →
      c.name? = some name → q < p → containers[q]? = some d → d.name? = some name →
      Faulty containers p (.duplicateName name)

/-- The fault is that of the first container that has one. -/
structure FirstFault (containers : List Container) (p : Nat) (problem : Problem) : Prop where
  /-- The container at the position has the fault. -/
  faulty : Faulty containers p problem
  /-- No container before it has any. -/
  first : ∀ q other, q < p → ¬ Faulty containers q other

variable {containers : List Container} {p : Nat} {problem : Problem}

theorem Faulty.not_wellNamed (h : Faulty containers p problem) : ¬ Container.WellNamed containers := by
  intro hnamed
  cases h with
  | empty hc hempty =>
      obtain ⟨name, hname, hne⟩ := hnamed.named _ (List.mem_of_getElem? hc)
      exact hne (hempty name hname)
  | repeated hc hname hlt hd hdname =>
      have hsame := hnamed.position_unique hd hc (hdname.trans hname.symm)
      exact absurd hsame (Nat.ne_of_lt hlt)

theorem not_faulty {c : Container} {name : String} (hc : containers[p]? = some c)
    (hname : c.name? = some name) (hne : name ≠ "")
    (hnew : ∀ q d, q < p → containers[q]? = some d → d.name? ≠ some name) :
    ¬ Faulty containers p problem := by
  intro h
  cases h with
  | empty hc' hempty =>
      cases hc.symm.trans hc'
      exact hne (hempty name hname)
  | repeated hc' hname' hlt hd hdname =>
      cases hc.symm.trans hc'
      cases hname.symm.trans hname'
      exact hnew _ _ hlt hd hdname

theorem FirstFault.unique {p' : Nat} {problem' : Problem} (h : FirstFault containers p problem)
    (h' : FirstFault containers p' problem') : p = p' ∧ problem = problem' := by
  have hposition : p = p' := by
    rcases Nat.lt_trichotomy p p' with hlt | heq | hlt
    · exact absurd h.faulty (h'.first p problem hlt)
    · exact heq
    · exact absurd h'.faulty (h.first p' problem' hlt)
  subst hposition
  -- an empty name that is repeated is faulty at its first place already
  have hdisjoint : ∀ {c d : Container} {q : Nat} {name : String},
      (∀ name, c.name? = some name → name = "") → c.name? = some name → q < p →
      containers[q]? = some d → d.name? = some name → False := by
    intro c d q name hempty hname hlt hd hdname
    refine h.first q (.emptyName q) hlt (.empty hd fun other hother => ?_)
    rw [← Option.some.inj (hdname.symm.trans hother), hempty name hname]
  refine ⟨rfl, ?_⟩
  cases h.faulty with
  | empty hc hempty =>
      cases h'.faulty with
      | empty => rfl
      | repeated hc' hname hlt hd hdname =>
          cases hc.symm.trans hc'
          exact (hdisjoint hempty hname hlt hd hdname).elim
  | repeated hc hname hlt hd hdname =>
      cases h'.faulty with
      | empty hc' hempty =>
          cases hc.symm.trans hc'
          exact (hdisjoint hempty hname hlt hd hdname).elim
      | repeated hc' hname' =>
          cases hc.symm.trans hc'
          cases hname.symm.trans hname'
          rfl

theorem contains_set_iff {index : Index} {name other : String} {entry : Entry} :
    (index.set name entry).contains other = true ↔ other = name ∨ index.contains other = true := by
  by_cases h : other = name
  · simp [contains, h]
  · simp [contains, get?_set_of_ne _ _ h, h]

/-- The containers before the position have been added: none of them has a fault, and the index has
their names. -/
structure Added (containers : List Container) (p : Nat) (index : Index) : Prop where
  /-- The names that the index has are theirs. -/
  contains : ∀ name, index.contains name = true ↔
    ∃ q d, q < p ∧ containers[q]? = some d ∧ d.name? = some name
  /-- None of them has a fault. -/
  faultless : ∀ q other, q < p → ¬ Faulty containers q other

variable {index : Index}

theorem added_empty (containers : List Container) : Added containers 0 ⟨[]⟩ where
  contains name := by simp [Index.contains, get?]
  faultless q other hq := absurd hq (Nat.not_lt_zero q)

theorem Added.set {c : Container} {name : String} (h : Added containers p index)
    (hc : containers[p]? = some c) (hname : c.name? = some name) (hne : name ≠ "")
    (hnew : ¬ index.contains name = true) (entry : Entry) :
    Added containers (p + 1) (index.set name entry) where
  contains other := by
    rw [contains_set_iff, h.contains]
    constructor
    · rintro (rfl | ⟨q, d, hlt, hd, hdname⟩)
      · exact ⟨p, c, Nat.lt_succ_self p, hc, hname⟩
      · exact ⟨q, d, Nat.lt_succ_of_lt hlt, hd, hdname⟩
    · rintro ⟨q, d, hlt, hd, hdname⟩
      rcases Nat.lt_succ_iff_lt_or_eq.1 hlt with hlt | rfl
      · exact .inr ⟨q, d, hlt, hd, hdname⟩
      · cases hc.symm.trans hd
        exact .inl (Option.some.inj (hdname.symm.trans hname))
  faultless q other hlt := by
    rcases Nat.lt_succ_iff_lt_or_eq.1 hlt with hlt | rfl
    · exact h.faultless q other hlt
    · refine not_faulty hc hname hne fun q' d hlt' hd hdname => ?_
      exact hnew ((h.contains name).2 ⟨q', d, hlt', hd, hdname⟩)

/-- **Building stops at the first fault.** -/
theorem firstFault_of_addFrom {rest : List Container} {failure : Failure}
    (hadded : Added containers p index) (hrest : containers.drop p = rest)
    (h : addFrom p index rest = .error failure) :
    ∃ p problem, FirstFault containers p problem ∧ failure = .malformed problem := by
  induction rest generalizing p index with
  | nil => cases h
  | cons c rest ih =>
      have hc : containers[p]? = some c := by
        rw [← Nat.add_zero p, ← List.getElem?_drop, hrest]
        rfl
      have hbehind : containers.drop (p + 1) = rest := by
        rw [← List.tail_drop, hrest, List.tail_cons]
      rw [addFrom] at h
      split at h
      · next hname =>
        cases h
        exact ⟨p, _, ⟨.empty hc (by simp [hname]), hadded.faultless⟩, rfl⟩
      · next name hname =>
        split at h
        · next hempty =>
          cases h
          exact ⟨p, _, ⟨.empty hc (by simp [hname, hempty]), hadded.faultless⟩, rfl⟩
        · next hne =>
          split at h
          · next hknown =>
            cases h
            obtain ⟨q, d, hlt, hd, hdname⟩ := (hadded.contains name).1 hknown
            exact ⟨p, _, ⟨.repeated hc hname hlt hd hdname, hadded.faultless⟩, rfl⟩
          · next hnew => exact ih (hadded.set hc hname hne hnew _) hbehind h

/-- **What is told of containers that are not well named is the fault of the first that has one.** -/
theorem build_eq_error_iff {failure : Failure} :
    build containers = .error failure ↔
      ∃ p problem, FirstFault containers p problem ∧ failure = .malformed problem := by
  have hfirst : ∀ {failure}, build containers = .error failure →
      ∃ p problem, FirstFault containers p problem ∧ failure = .malformed problem :=
    firstFault_of_addFrom (added_empty containers) List.drop_zero
  refine ⟨hfirst, ?_⟩
  rintro ⟨p, problem, hfault, rfl⟩
  cases h : build containers with
  | ok index => exact absurd (build_eq_ok_iff.1 h).1 hfault.faulty.not_wellNamed
  | error failure =>
      obtain ⟨p', problem', hfault', rfl⟩ := hfirst h
      rw [(hfault.unique hfault').2]

/-! ## The whole index -/

/-- The index has all that there is to know of the containers. -/
structure Complete (containers : List Container) (index : Index) : Prop where
  /-- There is one entry for each container, under its name, and they stand in order. -/
  names : (Keyed.keys index.entries).map some = containers.map Container.name?
  /-- There are no entries besides. -/
  size : index.size = containers.length
  /-- The names that it has are those of the containers. -/
  contains : ∀ name, index.contains name = true ↔ ∃ c ∈ containers, c.name? = some name
  /-- A name leads to the entry that describes its container, at the place of the container. -/
  resolved : ∀ (position : Nat) (c : Container) (name : String) (kind : Kind),
    containers[position]? = some c → c.name? = some name →
    ∃ entry, index.resolve name kind = .ok entry ∧ entry.Describes position c
  /-- A name that no container has leads nowhere. -/
  unknown : ∀ (name : String) (kind : Kind), (∀ c ∈ containers, c.name? ≠ some name) →
    index.resolve name kind = .error (.unknownContainer name kind)

theorem complete_of_build (h : build containers = .ok index) :
    Complete containers index where
  names := by
    obtain ⟨hnamed, hentries⟩ := build_eq_ok_iff.1 h
    rw [hentries, keys_entriesFrom, List.map_map]
    refine List.map_congr_left fun c hc => ?_
    obtain ⟨name, hname, -⟩ := hnamed.named c hc
    simp [hname]
  size := by
    rw [size, (build_eq_ok_iff.1 h).2, entriesFrom, List.length_mapIdx]
  contains name := by
    rw [Index.contains, Option.isSome_iff_exists]
    simp only [get?_of_build h, List.mem_iff_getElem?]
    constructor
    · rintro ⟨_, i, c, hc, hname, -⟩
      exact ⟨c, ⟨i, hc⟩, hname⟩
    · rintro ⟨c, ⟨i, hc⟩, hname⟩
      exact ⟨_, i, c, hc, hname, rfl⟩
  resolved position c name kind hc hname := by
    have hget : index.get? name = some (.ofContainer position c) :=
      (get?_of_build h).2 ⟨position, c, hc, hname, rfl⟩
    exact ⟨_, by rw [resolve, hget], describes_ofContainer position c⟩
  unknown name kind hnone := by
    have hget : index.get? name = none := by
      refine Option.eq_none_iff_forall_not_mem.2 fun entry hentry => ?_
      obtain ⟨i, c, hc, hname, -⟩ := (get?_of_build h).1 hentry
      exact hnone c (List.mem_of_getElem? hc) hname
    rw [resolve, hget]

/-- What becomes of containers that are to be indexed. -/
structure Indexed (containers : List Container) : Prop where
  /-- Well-named containers are indexed, and no others. -/
  accepted : (∃ index, build containers = .ok index) ↔ Container.WellNamed containers
  /-- The index is complete. -/
  complete : ∀ index, build containers = .ok index → Complete containers index
  /-- All others are refused for the fault of the first that has one. -/
  refused : ∀ failure, build containers = .error failure ↔
    ∃ p problem, FirstFault containers p problem ∧ failure = .malformed problem
  /-- A name that is missing or empty is told with its place. -/
  nameless : ∀ p q, FirstFault containers p (.emptyName q) → q = p ∧
    ∃ failure, build containers = .error failure ∧ failure.message
      = "no valid task definition found: " ++
        ("container at position " ++ toString p ++ " has an empty name")
  /-- A name that stands twice is told itself. -/
  shared : ∀ p name, FirstFault containers p (.duplicateName name) →
    ∃ failure, build containers = .error failure ∧ failure.message
      = "no valid task definition found: " ++ ("duplicate container name: \"" ++ name ++ "\"")

/-- **Exactly the well-named containers are indexed, and then completely; otherwise the first fault in
a name is told.** -/
theorem indexed_build (containers : List Container) : Indexed containers where
  accepted := by
    constructor
    · rintro ⟨index, h⟩
      exact (build_eq_ok_iff.1 h).1
    · exact fun hnamed => ⟨⟨_⟩, build_eq_ok_iff.2 ⟨hnamed, rfl⟩⟩
  complete _ := complete_of_build
  refused _ := build_eq_error_iff
  nameless p q hfault := by
    have hplace : q = p := by cases hfault.faulty; rfl
    subst hplace
    exact ⟨rfl, _, build_eq_error_iff.2 ⟨q, _, hfault, rfl⟩, rfl⟩
  shared p name hfault :=
    ⟨_, build_eq_error_iff.2 ⟨p, _, hfault, rfl⟩, rfl⟩

end Index

end TaskRevision
