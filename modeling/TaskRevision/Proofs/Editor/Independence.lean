import TaskRevision.Proofs.Editor.Fields
import TaskRevision.Proofs.Editor.Rows
/-!
# Containers and kinds do not interfere

Two rows of records may give each container the same records in the same order and mingle those of
different containers differently.  Then both end well or neither does, and what they leave is the same
(`SameTargets`).  If they give each container the same records of each kind, but mingle the kinds
differently, what they leave differs at most in the order of the fields that are made on the way
(`SameTargetsByKind`).

* `SameTargetsByKind.perm` — such rows hold the same records, in some order;
* `Editor.History.applyAll_iff` — **the one ends well if and only if the other does**;
* `Applied.sameUpToOrder` — what the kinds, mingled differently, leave of one container;
* `independent_applyAll` — the whole statement about two rows.
-/

namespace TaskRevision

open Json (Members)
open Update (Kind Record)
open Container

/-! ## Rows with the same records -/

/-- Each container is named by the same records, in the same order. -/
def SameTargets (xs ys : List Record) : Prop :=
  ∀ name : String, targeting (some name) xs = targeting (some name) ys

/-- Each container is named by the same records of each kind, in the same order. -/
def SameTargetsByKind (xs ys : List Record) : Prop :=
  ∀ (name : String) (kind : Kind),
    (targeting (some name) xs).filter (fun record => record.kind = kind)
      = (targeting (some name) ys).filter fun record => record.kind = kind

theorem SameTargets.byKind {xs ys : List Record} (h : SameTargets xs ys) : SameTargetsByKind xs ys :=
  fun name _ => by rw [h name]

/-- Such rows hold the same records, in some order. -/
theorem SameTargetsByKind.perm {xs ys : List Record} (h : SameTargetsByKind xs ys) : xs.Perm ys := by
  refine List.perm_iff_count.2 fun record => ?_
  have hcount : ∀ records : List Record,
      ((targeting (some record.container) records).filter fun other => other.kind = record.kind).count
          record = records.count record := by
    intro records
    rw [List.count_filter (by simp), targeting, List.count_filter (by simp)]
  rw [← hcount xs, h record.container record.kind, hcount ys]

/-! ## Kinds and fields -/

/-- The field that records of a kind write. -/
def Update.Kind.field : Kind → String
  | .image => imageField
  | .environment => Listing.environment.field
  | .dockerLabel => labelsField
  | .secret => Listing.secrets.field

theorem Update.Record.field_eq (record : Record) : record.field = record.kind.field := by
  cases record <;> rfl

theorem Update.Kind.field_injective : Function.Injective Kind.field := by
  intro kind other h
  revert h
  cases kind <;> cases other <;> decide

/-- Rows with the same records of each kind have the same records of each field. -/
theorem filter_field_eq {xs ys : List Record}
    (h : ∀ kind : Kind, xs.filter (fun record => record.kind = kind)
      = ys.filter fun record => record.kind = kind) (field : String) :
    xs.filter (fun record => record.field = field)
      = ys.filter fun record => record.field = field := by
  by_cases hkind : ∃ kind : Kind, kind.field = field
  · obtain ⟨kind, rfl⟩ := hkind
    have hfield : ∀ record : Record, record.field = kind.field ↔ record.kind = kind := by
      intro record
      rw [record.field_eq, Kind.field_injective.eq_iff]
    simp only [hfield]
    exact h kind
  · have hnone : ∀ records : List Record,
        records.filter (fun record => record.field = field) = [] := by
      intro records
      refine List.filter_eq_nil_iff.2 fun record _ hfield => hkind ⟨record.kind, ?_⟩
      rw [← record.field_eq]
      exact of_decide_eq_true hfield
    rw [hnone xs, hnone ys]

theorem mem_map_field_iff {records : List Record} {field : String} :
    field ∈ records.map Record.field ↔ records.filter (fun record => record.field = field) ≠ [] := by
  rw [Ne, List.filter_eq_nil_iff, List.mem_map]
  simp

/-! ## One container -/

/-- The containers `c` and `d`, made of `old`, differ at most in the order of the fields made since. -/
structure Container.SameUpToOrder (old c d : Container) : Prop where
  /-- Each field has the same value in both. -/
  get? : ∀ field, c.get? field = d.get? field
  /-- The fields of `old` stand first in both, in the same order and with the same values.  Behind them
  stand those that edits have made, the same in both but for their order. -/
  fields : ∃ kept made made' : Members, c.fields = kept ++ made ∧ d.fields = kept ++ made' ∧
    made.Perm made' ∧ Keyed.keys kept = Keyed.keys old.fields ∧
    ∀ field ∈ Keyed.keys made, field ∉ Keyed.keys old.fields ∧
      field ∈ ["image", "environment", "dockerLabels", "secrets"]

theorem Update.Kind.field_mem (kind : Kind) :
    kind.field ∈ ["image", "environment", "dockerLabels", "secrets"] := by
  cases kind <;> decide

/-- Records of different kinds, mingled differently, leave a container the same but for the order of
the fields that they make. -/
theorem Applied.sameUpToOrder {first : Option String} {old c d : Container} {xs ys : List Record}
    (hc : Applied first old xs c) (hd : Applied first old ys d)
    (h : ∀ kind : Kind, xs.filter (fun record => record.kind = kind)
      = ys.filter fun record => record.kind = kind) : old.SameUpToOrder c d := by
  have hget : ∀ field, c.get? field = d.get? field := by
    intro field
    obtain ⟨c₁, hc₁, hfield₁⟩ := hc.only field
    obtain ⟨d₁, hd₁, hfield₂⟩ := hd.only field
    rw [filter_field_eq h field] at hc₁
    rw [← hfield₁, ← hfield₂, hc₁.unique hd₁]
  have hmem : ∀ field, field ∈ xs.map Record.field ↔ field ∈ ys.map Record.field := by
    intro field
    rw [mem_map_field_iff, mem_map_field_iff, filter_field_eq h field]
  obtain ⟨writes, hkeys, hfields⟩ := hc.exists_writes
  obtain ⟨writes', hkeys', hfields'⟩ := hd.exists_writes
  have hlast : Keyed.lastValue? writes = Keyed.lastValue? writes' := by
    funext field
    rw [lastValue?_writes hkeys hfields, lastValue?_writes hkeys' hfields', hget field]
    simp only [hmem field]
  refine ⟨hget, Keyed.revalue (Keyed.lastValue? writes) old.fields,
    (Keyed.settled writes).filter fun write => write.1 ∉ Keyed.keys old.fields,
    (Keyed.settled writes').filter fun write => write.1 ∉ Keyed.keys old.fields, ?_, ?_, ?_, ?_, ?_⟩
  · rw [hfields, Keyed.overlay_eq_append]
  · rw [hfields', Keyed.overlay_eq_append, hlast]
  · exact (Keyed.settled_perm hlast).filter _
  · exact Keyed.keys_revalue _ _
  · intro field hfield
    obtain ⟨write, hwrite, rfl⟩ := List.mem_map.1 hfield
    obtain ⟨hsettled, hnew⟩ := List.mem_filter.1 hwrite
    have hwritten : write.1 ∈ xs.map Record.field := by
      rw [← hkeys, ← List.mem_eraseDups, ← Keyed.keys_settled]
      exact List.mem_map.2 ⟨write, hsettled, rfl⟩
    obtain ⟨record, -, hrecord⟩ := List.mem_map.1 hwritten
    refine ⟨of_decide_eq_true hnew, ?_⟩
    rw [← hrecord, record.field_eq]
    exact record.kind.field_mem

/-! ## Editors -/

namespace Editor

variable {original : List Container} {start : Editor} {xs ys : List Record}

/-- **The one row ends well if and only if the other does**, with the same number of records. -/
theorem History.applyAll_iff (h : History original [] start) (hsame : SameTargetsByKind xs ys)
    (n : Nat) : (start.applyAll xs).2 = .ok n ↔ (start.applyAll ys).2 = .ok n := by
  rw [h.applyAll_eq_ok_iff, h.applyAll_eq_ok_iff, hsame.perm.length_eq]
  simp only [hsame.perm.mem_iff]

/-- What two rows of records have in common that give each container the same records. -/
structure Independent (original : List Container) (start : Editor) (xs ys : List Record) : Prop where
  /-- If the records of each container are in the same order: either both rows end well, with the same
  number of records, or neither does; and they leave the same containers. -/
  byContainer : SameTargets xs ys →
    (∀ n, (start.applyAll xs).2 = .ok n ↔ (start.applyAll ys).2 = .ok n) ∧
    ∀ n, (start.applyAll xs).2 = .ok n →
      (start.applyAll xs).1.containers = (start.applyAll ys).1.containers
  /-- If only those of each kind are in the same order: the same, but for the order in which fields are
  made in a container. -/
  byKind : SameTargetsByKind xs ys →
    (∀ n, (start.applyAll xs).2 = .ok n ↔ (start.applyAll ys).2 = .ok n) ∧
    ∀ n, (start.applyAll xs).2 = .ok n →
      (start.applyAll xs).1.containers.length = original.length ∧
      (start.applyAll ys).1.containers.length = original.length ∧
      ∀ {i : Nat} {old : Container}, original[i]? = some old →
        ∃ c d, (start.applyAll xs).1.containers[i]? = some c ∧
          (start.applyAll ys).1.containers[i]? = some d ∧ old.SameUpToOrder c d

/-- Editors that have applied the same records to each container hold the same containers. -/
theorem History.containers_eq {done done' : List Record} {editor editor' : Editor}
    (h : History original done editor) (h' : History original done' editor')
    (hsame : SameTargets done done') : editor.containers = editor'.containers := by
  refine List.ext_getElem? fun i => ?_
  cases hold : original[i]? with
  | none =>
      have hlength := List.getElem?_eq_none_iff.1 hold
      rw [List.getElem?_eq_none_iff.2 (h.length ▸ hlength),
        List.getElem?_eq_none_iff.2 (h'.length ▸ hlength)]
  | some old =>
      obtain ⟨c, hc⟩ := h.exists_current hold
      obtain ⟨d, hd⟩ := h'.exists_current hold
      obtain ⟨name, hname, -⟩ := h.wellNamed.named old (List.mem_of_getElem? hold)
      have happlied := h.applied hold hc
      have happlied' := h'.applied hold hd
      rw [hname, hsame name] at happlied
      rw [hname] at happlied'
      rw [hc, hd, happlied.unique happlied']

/-- **Containers and kinds do not interfere.** -/
theorem independent_applyAll (h : ofContainers original = .ok start) (xs ys : List Record) :
    Independent original start xs ys := by
  have hstart := History.of_ofContainers h
  constructor
  · intro hsame
    refine ⟨hstart.applyAll_iff hsame.byKind, fun n hxs => ?_⟩
    have hys := (hstart.applyAll_iff hsame.byKind n).1 hxs
    exact (History.of_applyAll h hxs).containers_eq (History.of_applyAll h hys) hsame
  · intro hsame
    refine ⟨hstart.applyAll_iff hsame, fun n hxs => ?_⟩
    have hys := (hstart.applyAll_iff hsame n).1 hxs
    have hleft := History.of_applyAll h hxs
    have hright := History.of_applyAll h hys
    refine ⟨hleft.length, hright.length, fun {i old} hold => ?_⟩
    obtain ⟨c, hc⟩ := hleft.exists_current hold
    obtain ⟨d, hd⟩ := hright.exists_current hold
    obtain ⟨name, hname, -⟩ := hstart.wellNamed.named old (List.mem_of_getElem? hold)
    have hkinds := hsame name
    rw [← hname] at hkinds
    exact ⟨c, d, hc, hd, (hleft.applied hold hc).sameUpToOrder (hright.applied hold hd) hkinds⟩

/-- Records of two containers, mingled in two ways, and once more with the kinds turned around. -/
theorem independent_applyAll_two_containers :
    let web : Container := ⟨[("name", .string "web"), ("environment", .null)]⟩
    let db : Container := ⟨[("name", .string "db"), ("image", .string "postgres:16")]⟩
    let start : Editor := ⟨[web, db],
      ⟨[("web", ⟨0, none, [], [], []⟩), ("db", ⟨1, some "postgres:16", [], [], []⟩)]⟩⟩
    let xs : List Record := [.label "web" "k" "v", .image "db" .tag "17", .secret "web" "S" "arn",
      .environment "web" "A" "1"]
    let ys : List Record := [.label "web" "k" "v", .secret "web" "S" "arn",
      .environment "web" "A" "1", .image "db" .tag "17"]
    let zs : List Record := [.secret "web" "S" "arn", .image "db" .tag "17",
      .environment "web" "A" "1", .label "web" "k" "v"]
    ofContainers [web, db] = .ok start ∧ (start.applyAll xs).2 = .ok 4 ∧
      SameTargets xs ys ∧ Independent [web, db] start xs ys ∧
      SameTargetsByKind xs zs ∧ Independent [web, db] start xs zs := by
  intro web db start xs ys zs
  refine ⟨rfl, rfl, ?_, independent_applyAll rfl xs ys, ?_, independent_applyAll rfl xs zs⟩
  · intro name
    by_cases hweb : "web" = name
    · subst hweb
      rfl
    · by_cases hdb : "db" = name
      · subst hdb
        rfl
      · simp [targeting, xs, ys, Record.container, hweb, hdb]
  · intro name kind
    by_cases hweb : "web" = name
    · subst hweb
      cases kind <;> rfl
    · by_cases hdb : "db" = name
      · subst hdb
        cases kind <;> rfl
      · simp [targeting, xs, zs, Record.container, hweb, hdb]

end Editor

end TaskRevision
