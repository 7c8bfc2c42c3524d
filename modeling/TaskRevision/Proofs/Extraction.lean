import TaskRevision.Field
import TaskRevision.Proofs.Description.Agreement
import TaskRevision.Proofs.Text.Trimmed
import TaskRevision.Proofs.Untouched
/-!
# Fields of a document that is accepted as a description

Extracting a field reads the document as a value, editing reads it as a description.  Where the document
is accepted as a description the two say the same: every field of the description is extracted as it
stands there, the containers as they are written, and what is missing in the format of its kind.

* `Unquoted`, `IsWord`, `Shown` — the text that a field is shown as, by the name of the field;
* `shown_iff` — that text is the one of the format of the field;
* `lookup_around` — what is around a known member is found where the object has it;
* `extract_of_parse` — **the whole law**.
-/

namespace TaskRevision

open Json (Value Members)

/-! ## What a field is shown as -/

/-- The text of a value: a text without its quotes, nothing for null, any other value as it is written. -/
inductive Unquoted : Value → String → Prop
  | text (s : String) : Unquoted (.string s) s
  | null : Unquoted .null ""
  | other {v : Value} : (∀ s, v ≠ .string s) → v ≠ .null → Unquoted v v.compact

/-- The word for an item of a list is its text without the blanks at the ends. -/
def IsWord (item : Value) (word : String) : Prop :=
  ∃ text, Unquoted item text ∧ Text.Trims text.toList word.toList

/-- The fields that hold lists in any case. -/
def listFields : List String := ["placementConstraints", "volumes", "tags"]

/-- The fields that hold objects in any case. -/
def objectFields : List String := ["proxyConfiguration", "runtimePlatform"]

/-- What a field is shown as if it has the value, or if it is missing. -/
inductive Shown (field : String) : Option Value → String → Prop
  /-- The compatibilities are a row of words, with a blank between two. -/
  | words {items : List Value} {words : List String} : field = "requiresCompatibilities" →
      List.Forall₂ IsWord items words → Shown field (some (.array items)) (" ".intercalate words)
  /-- Lists and objects are shown as they are written, -/
  | written {v : Value} : field ∈ listFields ∨ field ∈ objectFields → Shown field (some v) v.compact
  /-- and if they are missing, as an empty list -/
  | noList : field ∈ listFields → Shown field none "[]"
  /-- or as an empty object. -/
  | noObject : field ∈ objectFields → Shown field none "\x7b\x7d"
  /-- All other fields, and compatibilities that are no list, are shown without quotes, -/
  | unquoted {v : Value} {text : String} : field ∉ listFields → field ∉ objectFields →
      (field = "requiresCompatibilities" → ∀ items, v ≠ .array items) → Unquoted v text →
      Shown field (some v) text
  /-- and as nothing if they are missing. -/
  | nothing : field ∉ listFields → field ∉ objectFields → Shown field none ""

theorem unquoted_iff {v : Value} {text : String} : Unquoted v text ↔ text = Format.plainText v := by
  constructor
  · intro h
    cases h with
    | text => rfl
    | null => rfl
    | other hstring hnull =>
        cases v with
        | string s => exact absurd rfl (hstring s)
        | null => exact absurd rfl hnull
        | _ => rfl
  · rintro rfl
    cases v with
    | string s => exact .text s
    | null => exact .null
    | _ => exact .other nofun nofun

theorem isWord_iff {item : Value} {word : String} :
    IsWord item word ↔ Text.trim (Format.plainText item) = word := by
  simp only [IsWord, unquoted_iff, exists_eq_left, Text.trims_iff, ← Text.toList_trim,
    String.toList_inj, eq_comm]

theorem forall₂_isWord_iff {items : List Value} {words : List String} :
    List.Forall₂ IsWord items words ↔
      words = items.map fun item => Text.trim (Format.plainText item) := by
  have hword : IsWord = fun item word => Text.trim (Format.plainText item) = word :=
    funext₂ fun _ _ => propext isWord_iff
  rw [hword, ← List.forall₂_map_left_iff (f := fun item => Text.trim (Format.plainText item)),
    List.forall₂_eq_eq_eq, eq_comm]

namespace Format

variable {field : String}

theorem ofField_of_list (h : field ∈ listFields) : ofField field = .array := by
  simp only [listFields, List.mem_cons, List.not_mem_nil, or_false] at h
  rcases h with rfl | rfl | rfl <;> rfl

theorem ofField_of_object (h : field ∈ objectFields) : ofField field = .object := by
  simp only [objectFields, List.mem_cons, List.not_mem_nil, or_false] at h
  rcases h with rfl | rfl <;> rfl

theorem ofField_of_plain (hwords : field ≠ "requiresCompatibilities") (hlist : field ∉ listFields)
    (hobject : field ∉ objectFields) : ofField field = .plain := by
  simp_all [ofField, tagsField, listFields, objectFields]

end Format

theorem Shown.eq_renderOption {field : String} {v? : Option Value} {text : String}
    (h : Shown field v? text) : text = (Format.ofField field).renderOption v? := by
  cases h with
  | words hfield hwords =>
      subst hfield
      rw [forall₂_isWord_iff.1 hwords]
      rfl
  | written h =>
      rcases h with hlist | hobject
      · rw [Format.ofField_of_list hlist]
        rfl
      · rw [Format.ofField_of_object hobject]
        rfl
  | noList hlist =>
      rw [Format.ofField_of_list hlist]
      rfl
  | noObject hobject =>
      rw [Format.ofField_of_object hobject]
      rfl
  | @unquoted v text hlist hobject harray htext =>
      rw [unquoted_iff.1 htext]
      by_cases hwords : field = "requiresCompatibilities"
      · subst hwords
        cases v with
        | array items => exact absurd rfl (harray rfl items)
        | _ => rfl
      · rw [Format.ofField_of_plain hwords hlist hobject]
        rfl
  | nothing hlist hobject =>
      by_cases hwords : field = "requiresCompatibilities"
      · subst hwords
        rfl
      · rw [Format.ofField_of_plain hwords hlist hobject]
        rfl

theorem shown_renderOption (field : String) (v? : Option Value) :
    Shown field v? ((Format.ofField field).renderOption v?) := by
  by_cases hlist : field ∈ listFields
  · rw [Format.ofField_of_list hlist]
    cases v? with
    | none => exact .noList hlist
    | some v => exact .written (.inl hlist)
  by_cases hobject : field ∈ objectFields
  · rw [Format.ofField_of_object hobject]
    cases v? with
    | none => exact .noObject hobject
    | some v => exact .written (.inr hobject)
  by_cases hwords : field = "requiresCompatibilities"
  · subst hwords
    cases v? with
    | none => exact .nothing hlist hobject
    | some v =>
        cases v with
        | array items => exact .words rfl (forall₂_isWord_iff.2 rfl)
        | _ => exact .unquoted hlist hobject nofun (unquoted_iff.2 rfl)
  · rw [Format.ofField_of_plain hwords hlist hobject]
    cases v? with
    | none => exact .nothing hlist hobject
    | some v => exact .unquoted hlist hobject (fun h => absurd h hwords) (unquoted_iff.2 rfl)

/-- **What a field is shown as** is the text that the format of the field gives it, and no other. -/
theorem shown_iff {field : String} {v? : Option Value} {text : String} :
    Shown field v? text ↔ text = (Format.ofField field).renderOption v? := by
  constructor
  · exact Shown.eq_renderOption
  · rintro rfl
    exact shown_renderOption field v?

/-! ## Extraction -/

/-- Among what is around a known member, a member is found where the object has it. -/
theorem lookup_around {key field : String} (hne : field ≠ key) (members : Members) :
    (members.filter fun member => member.1 ≠ key).lookup field = members.lookup field :=
  Keyed.lookup_filter (fun name => decide (name ≠ key)) (decide_eq_true hne) members

/-- The field is extracted as the one text that it is shown as if it has the value, or is missing. -/
def ExtractsAs (document field : String) (v? : Option Value) : Prop :=
  ∃ text, extract document field = .ok text ∧ ∀ shown, Shown field v? shown ↔ shown = text

/-- Every field of the document is extracted as the description has it. -/
structure ExtractsDescribed (document : String) (description : Description) : Prop where
  /-- The containers are extracted as they are written. -/
  containers : extract document "containerDefinitions"
    = .ok (Container.listToJson description.containers).compact
  /-- So they are printed where the document is revised without an update. -/
  revised : ∀ text, reviseText document {} .compact = .ok text →
    extract document "containerDefinitions" = .ok text
  /-- The tags are those beside the task definition. -/
  tags : ExtractsAs document "tags" (description.others.lookup "tags")
  /-- Any other field is that of the task definition. -/
  others : ∀ field, field ≠ "containerDefinitions" → field ≠ "tags" →
    ExtractsAs document field (description.definition.others.lookup field)

theorem extractsAs_iff {document field : String} {v? : Option Value} :
    ExtractsAs document field v? ↔
      extract document field = .ok ((Format.ofField field).renderOption v?) := by
  constructor
  · rintro ⟨text, htext, hshown⟩
    rw [htext, ← (hshown _).1 (shown_renderOption field v?)]
  · intro h
    exact ⟨_, h, fun _ => shown_iff⟩

/-- **Extraction and the description of a document agree on every field.** -/
theorem extract_of_parse {document : String} {description : Description}
    (h : Description.parse document = .ok description) : ExtractsDescribed document description := by
  obtain ⟨root, hroot, hof⟩ := Description.exists_value_of_parse h
  obtain ⟨_, beside, rfl, hdefinition, ⟨list, members, rfl, hlist, rfl, hothers⟩, hbeside⟩ := hof
  dsimp only at hdefinition hlist hothers hbeside
  have hextract : ∀ field, extract document field = .ok ((Format.ofField field).renderOption
      (if field = Format.tagsField then beside.lookup field else members.lookup field)) := by
    intro field
    simp only [extract, hroot, Value.get?, hdefinition]
  have hcontainers : extract document Definition.containersKey
      = .ok (Container.listToJson description.containers).compact := by
    have htags : Definition.containersKey ≠ Format.tagsField := by decide
    rw [hextract, if_neg htags, hlist]
    rfl
  refine ⟨hcontainers, ?_, ?_, ?_⟩
  · intro text htext
    obtain ⟨containers, hrevise, hwritten⟩ := bind_eq_ok_iff.1 htext
    cases hwritten
    rw [containers_of_revise h Update.idle_default hrevise]
    exact hcontainers
  · have hkey : "tags" ≠ Description.definitionKey := by decide
    have hbranch : "tags" = Format.tagsField := rfl
    rw [extractsAs_iff, hbeside, lookup_around hkey, hextract, if_pos hbranch]
  · intro field hfield htags
    have hkey : field ≠ Definition.containersKey := hfield
    have hbranch : field ≠ Format.tagsField := htags
    rw [extractsAs_iff, hothers, lookup_around hkey, hextract, if_neg hbranch]

/-- A document with fields of every format, some of them missing, and with tags at both levels. -/
def varied : String :=
  "\x7b\"tags\":[\x7b\"key\":\"team\"\x7d],\"taskDefinition\":\x7b\"family\":\"web app\",\"cpu\":1,"
    ++ "\"requiresCompatibilities\":[\" EC2 \", 7,null,\"EC2\"],\"taskRoleArn\":null,"
    ++ "\"volumes\":[ \x7b\x7d ],\"runtimePlatform\":\"ARM64\",\"tags\":0,"
    ++ "\"containerDefinitions\":[\x7b\"name\":\"web\"\x7d],\"cpu\":-2\x7d\x7d"

/-- What its fields are extracted as. -/
def variedFields : List (String × String) :=
  [("containerDefinitions", "[\x7b\"name\":\"web\"\x7d]"), ("tags", "[\x7b\"key\":\"team\"\x7d]"),
    ("family", "web app"), ("cpu", "-2"), ("requiresCompatibilities", "EC2 7  EC2"),
    ("taskRoleArn", ""), ("volumes", "[\x7b\x7d]"), ("runtimePlatform", "\"ARM64\""),
    ("placementConstraints", "[]"), ("proxyConfiguration", "\x7b\x7d"), ("memory", "")]

/-- The fields of the varied document are extracted so, and as its description has them. -/
theorem extract_varied : ∃ description, Description.parse varied = .ok description ∧
    ExtractsDescribed varied description ∧
    (∀ entry ∈ variedFields, extract varied entry.1 = .ok entry.2) ∧
    reviseText varied {} .compact = .ok "[\x7b\"name\":\"web\"\x7d]" := by
  -- one evaluation, since most of its time goes into taking the document apart into characters
  have hvalues : (Description.parse varied).toOption.isSome ∧
      (∀ entry ∈ variedFields, (extract varied entry.1).toOption = some entry.2) ∧
      (reviseText varied {} .compact).toOption = some "[\x7b\"name\":\"web\"\x7d]" := by
    decide +kernel
  simp only [Option.isSome_iff_exists, toOption_eq_some_iff] at hvalues
  obtain ⟨⟨description, hparse⟩, hfields, hrevised⟩ := hvalues
  exact ⟨description, hparse, extract_of_parse hparse, hfields, hrevised⟩

end TaskRevision
