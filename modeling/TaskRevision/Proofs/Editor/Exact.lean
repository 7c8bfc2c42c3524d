import TaskRevision.Proofs.Editor.History
/-!
# The index stays exact

The index is built once and then patched by hand, at a different place for each kind of edit.  After
any sequence of calls, failed ones among them, it is still the index that would be built anew of the
containers as they stand; only the images in it are those that the containers had at first.

`Editor.Exact` says this, and what an edit relies on: no position leads out of the containers or of a
list, each leads to an entry of the name that it is kept under, and an entry whose name is known is
never written a second time.  `exact_run` is the theorem.
-/

namespace TaskRevision

open Json (Value Members)
open Update (Record)
open Container (Listing nameOf?)

/-! ## The index without the images -/

/-- An entry without the image, which is the one part of it that edits leave behind. -/
def Entry.withoutImage (entry : Entry) : Entry := { entry with image := none }

/-- An index without the images. -/
def Index.withoutImages (index : Index) : Index :=
  ⟨index.entries.map fun entry => (entry.1, entry.2.withoutImage)⟩

theorem Index.keys_withoutImages (index : Index) :
    Keyed.keys index.withoutImages.entries = Keyed.keys index.entries := by
  simp [withoutImages, Keyed.keys]

theorem Index.lookup_withoutImages (index : Index) (name : String) :
    index.withoutImages.entries.lookup name = (index.get? name).map Entry.withoutImage :=
  Keyed.lookup_map Entry.withoutImage name index.entries

/-- Indexes of the same names, in the same order, are told apart by what they hold for a name. -/
theorem Index.withoutImages_eq {index fresh : Index}
    (hkeys : Keyed.keys index.entries = Keyed.keys fresh.entries)
    (hnodup : (Keyed.keys index.entries).Nodup)
    (h : ∀ name, (index.get? name).map Entry.withoutImage
      = (fresh.get? name).map Entry.withoutImage) :
    index.withoutImages = fresh.withoutImages := by
  have hentries : index.withoutImages.entries = fresh.withoutImages.entries := by
    refine Keyed.eq_of_lookup_eq ?_ ?_ fun name => ?_
    · rw [keys_withoutImages, keys_withoutImages, hkeys]
    · rwa [keys_withoutImages]
    · rw [lookup_withoutImages, lookup_withoutImages, h]
  exact congrArg Index.mk hentries

namespace Editor

/-- The index of the editor says of its containers, which were `original` at first, what is so. -/
structure Exact (original : List Container) (editor : Editor) : Prop where
  /-- Built anew, the index would be the same in all but images. -/
  rebuilt : ∃ fresh, Index.build editor.containers = .ok fresh ∧
    editor.index.withoutImages = fresh.withoutImages
  /-- The images are those of the original containers. -/
  image : ∀ {name : String} {entry : Entry}, editor.index.get? name = some entry →
    ∃ o, original[entry.position]? = some o ∧ o.name? = some name ∧ entry.image = o.image?
  /-- The position of a container is that of the container of its name.  So `Editor.attempt` always finds
  one there: its branch for a position beyond the list is never taken. -/
  container : ∀ {name : String} {entry : Entry}, editor.index.get? name = some entry →
    ∃ c, editor.containers[entry.position]? = some c ∧ c.name? = some name
  /-- A position in a list is that of an object with the name that it is kept under. -/
  listed : ∀ {name : String} {entry : Entry} {c : Container}, editor.index.get? name = some entry →
    editor.containers[entry.position]? = some c →
    ∀ (listing : Listing) (key : String) (n : Nat), (entry.positions listing).lookup key = some n →
    ∃ items members, c.get? listing.field = some (.array items) ∧
      items[n]? = some (.object members) ∧ nameOf? (.object members) = some key
  /-- A position of a docker label is that of the label. -/
  labelled : ∀ {name : String} {entry : Entry} {c : Container}, editor.index.get? name = some entry →
    editor.containers[entry.position]? = some c →
    ∀ (key : String) (n : Nat), entry.dockerLabels.lookup key = some n →
    ∃ labels v, c.get? Container.labelsField = some (.object labels) ∧ labels[n]? = some (key, v)
  /-- Writing an entry whose name is known makes no list longer. -/
  overwritten : ∀ {name : String} {entry : Entry} {c : Container}, editor.index.get? name = some entry →
    editor.containers[entry.position]? = some c →
    ∀ (listing : Listing) (key value : String) (items : List Value),
    c.array? listing.field = some items → ((entry.positions listing).lookup key).isSome →
    (put listing key value items entry).1.length = items.length

variable {original : List Container} {done : List Record} {editor : Editor}

/-! ## From histories to exactness -/

theorem History.wellNamed_current (h : History original done editor) :
    Container.WellNamed editor.containers := by
  refine ⟨fun c hc => ?_, h.map_name? ▸ h.wellNamed.distinct⟩
  have hmem : c.name? ∈ original.map Container.name? := h.map_name? ▸ List.mem_map.2 ⟨c, hc, rfl⟩
  obtain ⟨o, ho, hname⟩ := List.mem_map.1 hmem
  exact hname ▸ h.wellNamed.named o ho

/-- The index built anew holds what the index of the editor holds, but for the images. -/
theorem History.rebuilt (h : History original done editor) :
    ∃ fresh, Index.build editor.containers = .ok fresh ∧
      editor.index.withoutImages = fresh.withoutImages := by
  have hbuild : Index.build editor.containers = .ok ⟨Index.entriesFrom 0 editor.containers⟩ :=
    Index.build_eq_ok_iff.2 ⟨h.wellNamed_current, rfl⟩
  refine ⟨_, hbuild, ?_⟩
  have hkeys : Keyed.keys editor.index.entries
      = Keyed.keys (Index.entriesFrom 0 editor.containers) := by
    have hnames := congrArg (List.map fun name => name.getD "") h.map_name?
    rw [List.map_map, List.map_map] at hnames
    rw [h.keys, Index.keys_entriesFrom]
    exact hnames.symm
  have hnodup := Index.nodup_keys_entriesFrom h.wellNamed_current 0
  refine Index.withoutImages_eq hkeys (hkeys ▸ hnodup) fun name => ?_
  cases hget : editor.index.get? name with
  | some entry =>
      obtain ⟨i, o, c, ho, hname, hc, rfl⟩ := h.entry.1 hget
      rw [(Index.get?_of_build hbuild).2 ⟨i, c, hc, (h.name? ho hc).trans hname, rfl⟩]
      rfl
  | none =>
      cases hfresh : Index.get? ⟨Index.entriesFrom 0 editor.containers⟩ name with
      | none => rfl
      | some entry =>
          -- a container that the new index knows is one that the old one knows
          obtain ⟨i, c, hc, hname, rfl⟩ := (Index.get?_of_build hbuild).1 hfresh
          obtain ⟨o, ho⟩ := h.exists_original hc
          rw [h.entry.2 ⟨i, o, c, ho, (h.name? ho hc).symm.trans hname, hc, rfl⟩] at hget
          cases hget

/-- The names in a field that is known to hold one of them are those of a list. -/
theorem array_of_lookup_namedEntries {c : Container} {field key : String} {n : Nat}
    (h : (Positions.ofNames (c.namedEntries field)).lookup key = some n) :
    ∃ items, c.get? field = some (.array items) ∧ c.namedEntries field = Container.namesOf items := by
  unfold Container.namedEntries at h ⊢
  split at h
  · next items hitems =>
    obtain ⟨v, hv, harray⟩ := Option.bind_eq_some_iff.1 hitems
    cases v <;> simp [Value.array?] at harray
    subst harray
    exact ⟨_, hv, rfl⟩
  · cases h

/-- The labels of a container that is known to have one of them are those of an object. -/
theorem object_of_lookup_labelKeys {c : Container} {key : String} {n : Nat}
    (h : (Positions.ofNames c.labelKeys).lookup key = some n) :
    ∃ labels, c.get? Container.labelsField = some (.object labels) ∧
      c.labelKeys = Container.keysOf labels := by
  unfold Container.labelKeys at h ⊢
  split at h
  · next labels hlabels =>
    obtain ⟨v, hv, hobject⟩ := Option.bind_eq_some_iff.1 hlabels
    cases v <;> simp [Value.object?] at hobject
    subst hobject
    exact ⟨_, hv, rfl⟩
  · cases h

theorem length_overwriteLast? {name key value : String} {items items' : List Value}
    (h : overwriteLast? name key value items = some items') : items'.length = items.length := by
  induction items generalizing items' with
  | nil => cases h
  | cons item items ih =>
      rw [overwriteLast?] at h
      split at h
      · next rest hrest =>
        cases h
        rw [List.length_cons, List.length_cons, ih hrest]
      · split at h
        · cases h
          rfl
        · cases h

/-- A name that is found is carried by an item, which is then written into. -/
theorem length_upsert_of_lookup {name value : String} {items : List Value} (key : String)
    (h : ((Positions.ofNames (Container.namesOf items)).lookup name).isSome) :
    (upsert name key value items).length = items.length := by
  obtain ⟨n, hn⟩ := Option.isSome_iff_exists.1 h
  obtain ⟨members, hget, hname⟩ := object_of_lookup hn
  cases hlast : overwriteLast? name key value items with
  | none => exact absurd hname (overwriteLast?_eq_none_iff.1 hlast _ (List.mem_of_getElem? hget))
  | some items' => rw [upsert, hlast, Option.getD_some, length_overwriteLast? hlast]

theorem History.exact (h : History original done editor) : Exact original editor where
  rebuilt := h.rebuilt
  image := by
    intro name entry hget
    obtain ⟨i, o, c, ho, hname, hc, rfl⟩ := h.entry.1 hget
    exact ⟨o, ho, hname, rfl⟩
  container := by
    intro name entry hget
    obtain ⟨i, o, c, ho, hname, hc, rfl⟩ := h.entry.1 hget
    exact ⟨c, hc, (h.name? ho hc).trans hname⟩
  listed := by
    intro name entry c hget hc listing key n hn
    obtain ⟨i, o, d, ho, hname, hd, rfl⟩ := h.entry.1 hget
    cases hd.symm.trans hc
    rw [Entry.positions_tracking] at hn
    obtain ⟨items, hfield, hnames⟩ := array_of_lookup_namedEntries hn
    rw [hnames] at hn
    obtain ⟨members, hmembers, hkey⟩ := object_of_lookup hn
    exact ⟨items, members, hfield, hmembers, hkey⟩
  labelled := by
    intro name entry c hget hc key n hn
    obtain ⟨i, o, d, ho, hname, hd, rfl⟩ := h.entry.1 hget
    cases hd.symm.trans hc
    obtain ⟨labels, hfield, hkeys⟩ := object_of_lookup_labelKeys hn
    have hmem := mem_of_lookup_ofNames hn
    rw [hkeys] at hmem
    obtain ⟨v, hv⟩ := mem_keysOf.1 hmem
    exact ⟨labels, v, hfield, hv⟩
  overwritten := by
    intro name entry c hget hc listing key value items hitems hknown
    obtain ⟨i, o, d, ho, hname, hd, rfl⟩ := h.entry.1 hget
    cases hd.symm.trans hc
    rw [Entry.positions_tracking, namedEntries_of_array? hitems] at hknown
    rw [put_tracking i o.image? listing key value hitems]
    exact length_upsert_of_lookup listing.valueKey hknown

/-! ## The theorem -/

/-- **The index is exact after any sequence of calls.**  Whatever is done with an editor, in whatever
order and with whatever failures, its index says of the containers as they stand what is so. -/
theorem exact_run {start : Editor} (h : ofContainers original = .ok start) (calls : List Call) :
    (start.run calls).Exact original := by
  obtain ⟨done, hdone⟩ := (History.of_ofContainers h).run calls
  exact hdone.exact

/-- Two variables of one name, an item without a name, and calls that fail in between. -/
theorem exact_run_repeated_name :
    let web : Container := ⟨[("name", .string "web"), ("secrets", .bool true), ("environment", .array
      [.object [("name", .string "A")], .null, .object [("name", .string "A")]])]⟩
    let start : Editor := ⟨[web], ⟨[("web", ⟨0, none, [("A", 2)], [], []⟩)]⟩⟩
    ofContainers [web] = .ok start ∧
      (start.run [.apply (.environment "web" "B" "1"), .apply (.secret "web" "S" "arn"),
        .applyAll [.environment "web" "A" "2", .label "db" "k" "v", .environment "web" "B" "3"],
        .apply (.environment "web" "B" "4")]).Exact [web] :=
  ⟨rfl, exact_run rfl _⟩

end Editor

end TaskRevision
