import TaskRevision.Proofs.Text.Trimmed
import TaskRevision.Proofs.Update.Language
/-!
# Spelling records

Every record has a plain spelling: its pairs, written `key=value`, with commas between them.  Not every
record can be read back from it, since commas and blank ends do not survive in an update string.  The
well-formed records are those that do, and they are the only ones that any update string holds.

* `Record.wellFormed_iff` — a record is well-formed if its pairs are tidy and form a block;
* `says_spell` — the segments of a spelling are one block a record;
* `spellable_of_says` — **what is read from an update string is well-formed**;
* `records_spelled` — reading undoes spelling, and the spelling of what has been read is read alike.
-/

namespace TaskRevision.Update

open Text (trimL)

/-! ## Spelling -/

/-- The pairs that spell a record. -/
def Record.pairs : Record → List (String × String)
  | .image container mode value => [("container", container), (mode.name, value)]
  | .environment container name value =>
    [("container", container), ("name", name), ("value", value)]
  | .label container key value => [("container", container), (key, value)]
  | .secret container name source =>
    [("container", container), ("name", name), ("valueFrom", source)]

/-- A pair as a segment. -/
def pairL (pair : String × String) : List Char := pair.1.toList ++ '=' :: pair.2.toList

/-- The spelling of a record. -/
def Record.spellL (record : Record) : List Char := [','].intercalate (record.pairs.map pairL)

/-- The spellings of records, with commas between them. -/
def spell (records : List Record) : String :=
  String.ofList ([','].intercalate (records.map Record.spellL))

/-- The texts in a record that an update string can choose. -/
def Record.texts : Record → List String
  | .image container _ value => [container, value]
  | .environment container name value => [container, name, value]
  | .label container key value => [container, key, value]
  | .secret container name source => [container, name, source]

/-- The text holds no comma and has no blank ends. -/
def IsTidy (s : String) : Prop := ',' ∉ s.toList ∧ Text.trim s = s

/-- The record survives its spelling. -/
structure Record.WellFormed (record : Record) : Prop where
  /-- Its texts hold no comma and have no blank ends. -/
  tidy : ∀ s ∈ record.texts, IsTidy s
  /-- It names a container. -/
  anchored : record.container ≠ ""
  /-- The key of a label can be told from an anchor, and from its value. -/
  labelled : ∀ {container key value : String}, record = .label container key value →
    key ≠ "" ∧ key ≠ "container" ∧ '=' ∉ key.toList

/-! ## Tidy pairs -/

/-- The pair can be read back from its segment. -/
structure IsTidyPair (pair : String × String) : Prop where
  /-- The key is tidy. -/
  key : IsTidy pair.1
  /-- The key ends where the first equals sign stands. -/
  cut : '=' ∉ pair.1.toList
  /-- The value is tidy. -/
  value : IsTidy pair.2

theorem isTidy_iff {s : String} : IsTidy s ↔ ',' ∉ s.toList ∧ trimL s.toList = s.toList := by
  rw [IsTidy, ← String.toList_inj, Text.toList_trim]

theorem isTidy_trimmed {s : List Char} (h : ',' ∉ s) : IsTidy (String.ofList (trimL s)) := by
  rw [isTidy_iff, String.toList_ofList]
  exact ⟨fun hmem => h (Text.mem_of_mem_trimL hmem), Text.trimL_trimL s⟩

theorem IsTidyPair.readsAs {pair : String × String} (h : IsTidyPair pair) :
    ReadsAs (pairL pair) pair := by
  obtain ⟨key, value⟩ := pair
  refine ⟨key.toList, value.toList, rfl, h.cut, ?_⟩
  have hkey : trimL key.toList = key.toList := (isTidy_iff.1 h.key).2
  have hvalue : trimL value.toList = value.toList := (isTidy_iff.1 h.value).2
  rw [hkey, hvalue, String.ofList_toList, String.ofList_toList]

theorem IsTidyPair.comma_not_mem {pair : String × String} (h : IsTidyPair pair) :
    ',' ∉ pairL pair := by
  have hkey := h.key.1
  have hvalue := h.value.1
  simp [pairL, hkey, hvalue]

theorem ReadsAs.isTidyPair {segment : List Char} {pair : String × String}
    (h : ReadsAs segment pair) (hcomma : ',' ∉ segment) : IsTidyPair pair := by
  obtain ⟨before, after, rfl, hbefore, rfl⟩ := h
  have hcommas : ',' ∉ before ∧ ',' ∉ after := by simpa using hcomma
  refine ⟨isTidy_trimmed hcommas.1, fun hmem => hbefore ?_, isTidy_trimmed hcommas.2⟩
  exact Text.mem_of_mem_trimL (by simpa using hmem)

/-- The keys that the grammar knows. -/
def keywords : List String := ["container", "name", "value", "valueFrom"] ++ Mode.all.map Mode.name

/-- Under a key that the grammar knows a pair is tidy if its value is. -/
theorem isTidyPair_keyword_iff {key value : String} (h : key ∈ keywords) :
    IsTidyPair (key, value) ↔ IsTidy value := by
  have hall : ∀ word ∈ keywords, (',' ∉ word.toList ∧ Text.trim word = word) ∧ '=' ∉ word.toList := by
    decide
  exact ⟨fun hpair => hpair.value, fun hvalue => ⟨(hall key h).1, (hall key h).2, hvalue⟩⟩

theorem modeName_mem_keywords (mode : Mode) : mode.name ∈ keywords := by
  cases mode <;> decide

/-! ## Well-formed records -/

/-- A block consists of the pairs of its record. -/
theorem Block.eq_pairs {kind : Kind} {pairs : List (String × String)} {record : Record}
    (h : Block kind pairs record) : record.kind = kind ∧ record.pairs = pairs := by
  cases h <;> exact ⟨rfl, rfl⟩

theorem Block.anchored {kind : Kind} {pairs : List (String × String)} {record : Record}
    (h : Block kind pairs record) : record.container ≠ "" := by
  cases h <;> assumption

/-- The pairs of a record form a block if it names a container, and its label can be told from an
anchor. -/
theorem Record.block_iff {record : Record} :
    Block record.kind record.pairs record ↔ record.container ≠ "" ∧
      ∀ {container key value : String}, record = .label container key value →
        key ≠ "" ∧ key ≠ "container" := by
  constructor
  · intro h
    refine ⟨h.anchored, ?_⟩
    rintro container key value rfl
    cases h with
    | label _ _ hempty hword => exact ⟨hempty, hword⟩
  · rintro ⟨hanchored, hlabelled⟩
    cases record with
    | image container mode value => exact .image mode value hanchored
    | environment container name value => exact .environment name value hanchored
    | label container key value =>
        obtain ⟨hempty, hword⟩ := hlabelled rfl
        exact .label value hanchored hempty hword
    | secret container name source => exact .secret name source hanchored

/-- The pairs of a record are tidy if its texts are, and its label ends where it must. -/
theorem Record.isTidyPair_iff {record : Record} :
    (∀ pair ∈ record.pairs, IsTidyPair pair) ↔ (∀ s ∈ record.texts, IsTidy s) ∧
      ∀ {container key value : String}, record = .label container key value →
        '=' ∉ key.toList := by
  have hcontainer : ∀ container, IsTidyPair ("container", container) ↔ IsTidy container := fun _ =>
    isTidyPair_keyword_iff (by decide)
  cases record with
  | image container mode value =>
      simp [pairs, texts, hcontainer, isTidyPair_keyword_iff (modeName_mem_keywords mode)]
  | environment container name value =>
      simp [pairs, texts, hcontainer, isTidyPair_keyword_iff (show "name" ∈ keywords by decide),
        isTidyPair_keyword_iff (show "value" ∈ keywords by decide)]
  | label container key value =>
      have hpair : IsTidyPair (key, value) ↔ (IsTidy key ∧ IsTidy value) ∧ '=' ∉ key.toList :=
        ⟨fun h => ⟨⟨h.key, h.value⟩, h.cut⟩, fun ⟨⟨hkey, hvalue⟩, hcut⟩ => ⟨hkey, hcut, hvalue⟩⟩
      simp [pairs, texts, hcontainer, hpair, and_assoc]
  | secret container name source =>
      simp [pairs, texts, hcontainer, isTidyPair_keyword_iff (show "name" ∈ keywords by decide),
        isTidyPair_keyword_iff (show "valueFrom" ∈ keywords by decide)]

/-- **A record is well-formed** if and only if its pairs form a block and are tidy. -/
theorem Record.wellFormed_iff {record : Record} :
    record.WellFormed ↔
      Block record.kind record.pairs record ∧ ∀ pair ∈ record.pairs, IsTidyPair pair := by
  rw [block_iff, isTidyPair_iff]
  constructor
  · rintro ⟨htidy, hanchored, hlabelled⟩
    refine ⟨⟨hanchored, fun h => ?_⟩, htidy, fun h => (hlabelled h).2.2⟩
    exact ⟨(hlabelled h).1, (hlabelled h).2.1⟩
  · rintro ⟨⟨hanchored, hlabelled⟩, htidy, hcut⟩
    exact ⟨htidy, hanchored, fun h => ⟨(hlabelled h).1, (hlabelled h).2, hcut h⟩⟩

/-! ## Reading a spelling -/

theorem Record.exists_pairs (record : Record) :
    ∃ others, record.pairs = ("container", record.container) :: others := by
  cases record <;> exact ⟨_, rfl⟩

/-- The records may stand in an update string of the kind. -/
def Spellable (kind : Kind) (records : List Record) : Prop :=
  ∀ record ∈ records, record.kind = kind ∧ record.WellFormed

/-- The block that a record is spelled as. -/
def Record.part (record : Record) : Part := .block (record.pairs.map pairL) record

theorem recordsOf_map_part (records : List Record) : recordsOf (records.map Record.part) = records := by
  rw [recordsOf, List.filterMap_map]
  exact List.filterMap_some

theorem toList_spell (records : List Record) :
    (spell records).toList
      = [','].intercalate ((records.map Record.part).flatMap Part.segments) := by
  have hne : ∀ record ∈ records, record.pairs.map pairL ≠ [] := by
    intro record _
    obtain ⟨others, hpairs⟩ := record.exists_pairs
    simp [hpairs]
  rw [spell, String.toList_ofList, List.flatMap_map]
  exact Text.intercalate_flatMap (fun record : Record => record.pairs.map pairL) hne

/-- A spelling starts with the anchor of its first record. -/
theorem anchor_infix_spell (record : Record) (records : List Record) :
    "container=".toList <:+: (spell (record :: records)).toList := by
  obtain ⟨others, hpairs⟩ := record.exists_pairs
  have hanchor : "container=".toList <+: pairL ("container", record.container) :=
    ⟨record.container.toList, by simp [pairL]⟩
  have hrecord : pairL ("container", record.container) <+: record.spellL := by
    rw [Record.spellL, hpairs]
    cases others <;> simp
  have hspell : record.spellL <+: (spell (record :: records)).toList := by
    rw [spell, String.toList_ofList]
    cases records <;> simp
  exact ((hanchor.trans hrecord).trans hspell).isInfix

/-- **The segments of a spelling** are one block a record. -/
theorem says_spell {kind : Kind} {records : List Record} (h : Spellable kind records)
    (hne : records ≠ []) : Says kind (spell records) (records.map Record.part) := by
  have htidy : ∀ record ∈ records, ∀ pair ∈ record.pairs, IsTidyPair pair :=
    fun record hrecord => (Record.wellFormed_iff.1 (h record hrecord).2).2
  have hfits : ∀ part ∈ records.map Record.part, part.Fits kind := by
    intro part hpart
    obtain ⟨record, hrecord, rfl⟩ := List.mem_map.1 hpart
    obtain ⟨rfl, hformed⟩ := h record hrecord
    refine ⟨record.pairs, ?_, (Record.wellFormed_iff.1 hformed).1⟩
    rw [List.forall₂_map_left_iff, List.forall₂_same]
    exact fun pair hpair => (htidy record hrecord pair hpair).readsAs
  have hapart : ∀ segment ∈ (records.map Record.part).flatMap Part.segments, ',' ∉ segment := by
    intro segment hsegment
    simp only [List.mem_flatMap, List.mem_map, Record.part] at hsegment
    obtain ⟨part, ⟨record, hrecord, rfl⟩, hsegment⟩ := hsegment
    obtain ⟨pair, hpair, rfl⟩ := List.mem_map.1 hsegment
    exact (htidy record hrecord pair hpair).comma_not_mem
  obtain ⟨first, others, rfl⟩ := List.exists_cons_of_ne_nil hne
  have hnonempty : ((first :: others).map Record.part).flatMap Part.segments ≠ [] := by
    obtain ⟨pairs, hpairs⟩ := first.exists_pairs
    simp [Record.part, Part.segments, hpairs]
  exact ⟨fun _ => .inr (anchor_infix_spell first others), _,
    ⟨hnonempty, hapart, (toList_spell _).symm⟩, hfits, rfl⟩

/-- **Reading undoes spelling.** -/
theorem read_spell {kind : Kind} {records : List Record} (h : Spellable kind records) :
    read kind (spell records) = .ok records := by
  cases records with
  | nil => cases kind <;> rfl
  | cons record records =>
      have hsays := says_spell h (List.cons_ne_nil record records)
      exact read_eq_ok_iff_says.2 ⟨_, hsays, recordsOf_map_part _⟩

/-! ## Spelling what has been read -/

theorem isTidyPair_of_forall₂ {segments : List (List Char)} {pairs : List (String × String)}
    (h : List.Forall₂ ReadsAs segments pairs) (hapart : ∀ segment ∈ segments, ',' ∉ segment) :
    ∀ pair ∈ pairs, IsTidyPair pair := by
  induction h with
  | nil => simp
  | cons hreads _ ih =>
      rw [List.forall_mem_cons] at hapart ⊢
      exact ⟨hreads.isTidyPair hapart.1, ih hapart.2⟩

/-- **What is read from an update string** is well-formed. -/
theorem spellable_of_says {kind : Kind} {raw : String} {parts : List Part}
    (h : Says kind raw parts) : Spellable kind (recordsOf parts) := by
  obtain ⟨-, segments, hpieces, hfits, rfl⟩ := h
  intro record hrecord
  obtain ⟨blockSegments, hpart⟩ := mem_recordsOf_iff.1 hrecord
  obtain ⟨pairs, hreads, hblock⟩ := hfits _ hpart
  obtain ⟨rfl, rfl⟩ := hblock.eq_pairs
  have hapart : ∀ segment ∈ blockSegments, ',' ∉ segment := fun segment hsegment =>
    hpieces.apart segment (List.mem_flatMap.2 ⟨_, hpart, hsegment⟩)
  have htidy := isTidyPair_of_forall₂ hreads hapart
  exact ⟨rfl, Record.wellFormed_iff.2 ⟨hblock, htidy⟩⟩

/-- Update strings and records are two forms of one thing. -/
structure SpelledAndRead (kind : Kind) : Prop where
  /-- A spelling is read as the records that it spells exactly if they are all well-formed and of the
  kind. -/
  spelled : ∀ records : List Record, Update.records kind (spell records) = .ok records ↔
    ∀ record ∈ records, record.kind = kind ∧ record.WellFormed
  /-- Whatever is read from an update string is well-formed and of the kind, so that its spelling is
  read alike. -/
  read : ∀ (raw : String) (records : List Record), Update.records kind raw = .ok records →
    (∀ record ∈ records, record.kind = kind ∧ record.WellFormed) ∧
      Update.records kind (spell records) = .ok records

/-- **Reading undoes spelling, and only what can be spelled is ever read.** -/
theorem records_spelled (kind : Kind) : SpelledAndRead kind := by
  have hspelled : ∀ records : List Record, Spellable kind records →
      Update.records kind (spell records) = .ok records := by
    intro records h
    rw [Update.records, read_spell h]
  have hread : ∀ (raw : String) (records : List Record), Update.records kind raw = .ok records →
      Spellable kind records := by
    intro raw records h
    have hok : read kind raw = .ok records := by
      rw [Update.records] at h
      cases hok : Update.read kind raw with
      | ok found => simpa [hok] using h
      | error reason => simp [hok] at h
    obtain ⟨parts, hsays, rfl⟩ := read_eq_ok_iff_says.1 hok
    exact spellable_of_says hsays
  exact ⟨fun records => ⟨hread _ records, hspelled records⟩,
    fun raw records h => ⟨hread raw records h, hspelled records (hread raw records h)⟩⟩

example : spell [.secret "web" "A" "x=y", .secret "db" "" "z"]
    = "container=web,name=A,valueFrom=x=y,container=db,name=,valueFrom=z" := by decide

end TaskRevision.Update
