import TaskRevision.Proofs.Description.RoundTrip
import TaskRevision.Proofs.Index.Build
import TaskRevision.Proofs.Staging
import TaskRevision.Proofs.Update.Language
/-!
# Revisions without an update

Update strings that hold nothing but blanks and commas change nothing, and this shows in the text: a
compact list of containers comes out of a revision as it went in, character by character.  A pretty
one is laid out anew and is the same list; put in the place of the compact one it goes back to it.

* `records_of_isIdle`, `Editor.applyStrings_of_idle` — idle strings hold no record and edit nothing;
* `Description.parse_around` — the document around a written list is read back, in either style;
* `untouched_of_idle` — **the whole law**.
-/

namespace TaskRevision

open Json (Style Value)
open Update (Kind Strings)

/-! ## Idle update strings -/

namespace Update

/-- The string is blank, but for commas where the kind is not that of images. -/
def IsIdle (kind : Kind) (raw : String) : Prop :=
  ∀ c ∈ raw.toList, Text.isBlank c = true ∨ c = ',' ∧ kind ≠ .image

instance (kind : Kind) (raw : String) : Decidable (IsIdle kind raw) :=
  decidable_of_iff ((raw.toList.all fun c => Text.isBlank c || c = ',' && kind ≠ .image) = true)
    (by simp [IsIdle])

/-- All update strings are idle. -/
def Strings.Idle (strings : Strings) : Prop := ∀ kind, IsIdle kind (strings.get kind)

theorem idle_default : ({} : Strings).Idle := by
  intro kind
  cases kind <;> simp [IsIdle, Strings.get]

/-- An idle string holds no record. -/
theorem records_of_isIdle {kind : Kind} {raw : String} (h : IsIdle kind raw) :
    records kind raw = .ok [] := by
  let segments := Text.splitL ',' raw.toList
  have hgap : ∀ segment ∈ segments, IsGap segment := by
    intro segment hsegment c hc
    have hne : c ≠ ',' := fun heq => Text.not_mem_of_mem_splitL hsegment (heq ▸ hc)
    rcases h c (Text.mem_of_mem_splitL hsegment hc) with hblank | ⟨heq, -⟩
    · exact hblank
    · exact absurd heq hne
  have hmentioned : Mentioned kind raw := by
    rintro rfl
    refine .inl fun c hc => ?_
    rcases h c hc with hblank | ⟨-, himage⟩
    · exact hblank
    · exact absurd rfl himage
  have hdivides : Divides kind segments (segments.map Part.gap) := by
    constructor
    · rw [List.forall_mem_map]
      exact hgap
    · simp [List.flatMap_map, Part.segments]
  have hnone : recordsOf (segments.map Part.gap) = [] := by
    simp [recordsOf, Part.record?]
  have hsays : Says kind raw (segments.map Part.gap) :=
    ⟨hmentioned, segments, Text.isPieces_splitL ',' _, hdivides⟩
  rw [records, read_eq_ok_iff_says.2 ⟨_, hsays, hnone⟩]

theorem allRecords_of_isIdle {strings : List (Kind × String)}
    (h : ∀ entry ∈ strings, IsIdle entry.1 entry.2) : allRecords strings = .ok [] := by
  induction strings with
  | nil => rfl
  | cons entry strings ih =>
      rw [List.forall_mem_cons] at h
      simp only [allRecords, records_of_isIdle h.1, ih h.2, bind, Except.bind, List.nil_append]

end Update

/-- Idle strings leave the editor as it is. -/
theorem Editor.applyStrings_of_idle {strings : Strings} (h : strings.Idle) (editor : Editor) :
    editor.applyStrings strings.inApplyOrder = .ok editor := by
  have hall : ∀ entry ∈ strings.inApplyOrder, Update.IsIdle entry.1 entry.2 := by
    rw [Strings.inApplyOrder, List.forall_mem_map]
    exact fun kind _ => h kind
  exact applyStrings_eq_ok_iff.2 ⟨[], 0, Update.allRecords_of_isIdle hall, rfl⟩

/-- **Without an update a revision gives the containers of the document**, if they can be indexed. -/
theorem revise_of_idle {document : String} {description : Description} {strings : Strings}
    (hparse : Description.parse document = .ok description)
    (hnamed : Container.WellNamed description.containers) (h : strings.Idle) :
    revise document strings = .ok description.containers := by
  have hbuild : Index.build description.containers
      = .ok ⟨Index.entriesFrom 0 description.containers⟩ := Index.build_eq_ok_iff.2 ⟨hnamed, rfl⟩
  have heditor : Editor.ofContainers description.containers
      = .ok ⟨description.containers, ⟨Index.entriesFrom 0 description.containers⟩⟩ := by
    simp only [Editor.ofContainers, hbuild, bind, Except.bind]
  exact revise_eq_ok_iff_applyStrings.2
    ⟨description, _, _, hparse, heditor, Editor.applyStrings_of_idle h _, rfl⟩

/-- Without an update nothing but the containers of the document can come out. -/
theorem containers_of_revise {document : String} {description : Description} {strings : Strings}
    {containers : List Container} (hparse : Description.parse document = .ok description)
    (h : strings.Idle) (hrevise : revise document strings = .ok containers) :
    containers = description.containers := by
  cases hbuild : Index.build description.containers with
  | error failure =>
      simp [revise, hparse, Editor.ofContainers, hbuild, bind, Except.bind] at hrevise
  | ok index =>
      rw [revise_of_idle hparse (Index.build_eq_ok_iff.1 hbuild).1 h] at hrevise
      cases hrevise
      rfl

/-! ## Documents around a list -/

namespace Description

/-- What stands in front of the list in the least document. -/
def opening : String := "\x7b\"taskDefinition\":\x7b\"containerDefinitions\":"

/-- The least document with the given text as the list of the containers. -/
def around (list : String) : String := opening ++ list ++ "\x7d\x7d"

theorem toList_opening :
    opening.toList = '\x7b' :: (Json.stringL definitionKey
      ++ ':' :: '\x7b' :: (Json.stringL Definition.containersKey ++ [':'])) := by rfl

theorem toList_around (list : String) :
    (around list).toList = '\x7b' :: documentL .compact list.toList [] [] := by
  have hclosing : "\x7d\x7d".toList = ['\x7d', '\x7d'] := by decide
  rw [around, String.toList_append, String.toList_append, toList_opening, hclosing]
  simp only [documentL, Json.objectL, Json.membersL, Style.breakL, Style.colonL, List.nil_append,
    List.append_nil, List.cons_append, List.append_assoc]

/-- **A document around a written list is read back**, whatever the style of the list. -/
theorem parse_around {containers : List Container}
    (h : (Container.listToJson containers).Readable (Json.maxNesting - 2))
    (hnamed : ∀ c ∈ containers, c.name?.isSome) (style : Style) :
    parse (around ((Container.listToJson containers).write style)) = .ok ⟨⟨containers, []⟩, []⟩ := by
  have htext : around ((Container.listToJson containers).write style)
      = String.ofList ('\x7b' :: documentL .compact
        ((Container.listToJson containers).writeL style 0) [] []) := by
    rw [← String.toList_inj, toList_around, String.toList_ofList, Value.write, String.toList_ofList]
  have hcontainers : (Container.listToJson containers).Readable ((Json.maxNesting - 4) + 2) := h
  have hnone : ∀ levels key, (Value.object [(key, .null)]).Readable (levels + 1) := by
    intro levels key
    exact .object (by simp) (by simpa using .null)
  rw [htext]
  exact parse_documentL (fun rounds hrounds => Container.reads_list hcontainers hrounds)
    (hnone _ _) (hnone _ _) hnamed

end Description

/-! ## The law -/

/-- A revision with these strings keeps the containers, and their compact text as it stands. -/
structure Untouched (containers : List Container) (strings : Strings) : Prop where
  /-- The compact list comes out as it went in. -/
  compact : reviseText (Description.around (Container.listToJson containers).compact) strings .compact
    = .ok (Container.listToJson containers).compact
  /-- The pretty list is a list of the same containers, and leads back to the compact one. -/
  pretty : ∃ list description,
    reviseText (Description.around (Container.listToJson containers).compact) strings .pretty = .ok list ∧
    Description.parse (Description.around list) = .ok description ∧
    description.containers = containers ∧
    reviseText (Description.around list) strings .compact
      = .ok (Container.listToJson containers).compact

/-- **Without an update nothing is touched.** -/
theorem untouched_of_idle {containers : List Container} {strings : Strings}
    (hreadable : (Container.listToJson containers).Readable (Json.maxNesting - 2))
    (hnamed : Container.WellNamed containers) (hidle : strings.Idle) :
    Untouched containers strings := by
  have hnames : ∀ c ∈ containers, c.name?.isSome := by
    intro c hc
    obtain ⟨name, hname, -⟩ := hnamed.named c hc
    rw [hname, Option.isSome_some]
  have hparse : ∀ style, Description.parse (Description.around ((Container.listToJson containers).write style))
      = .ok ⟨⟨containers, []⟩, []⟩ := Description.parse_around hreadable hnames
  have hrevise : ∀ style style', reviseText
      (Description.around ((Container.listToJson containers).write style)) strings style'
        = .ok ((Container.listToJson containers).write style') := by
    intro style style'
    have hcontainers := revise_of_idle (hparse style) hnamed hidle
    simp only [reviseText, hcontainers, bind, Except.bind]
    rfl
  exact ⟨hrevise .compact .compact, _, _, hrevise .compact .pretty, hparse .pretty, rfl,
    hrevise .pretty .compact⟩

/-- Two containers with escapes, the least and the greatest integer, nulls, empty collections and keys
out of order. -/
def assorted : List Container :=
  [⟨[("z", .null), ("name", .string "web"), ("note", .string "a\"b\\c/\n\t\x01é\u2028"),
      ("cpu", .number (.integer (-9223372036854775808))),
      ("memory", .number (.integer 18446744073709551615)),
      ("mounts", .array [.array [], .object [], .object [("b", .null), ("a", .array [.bool true])]])]⟩,
    ⟨[("links", .array []), ("name", .string "log \u3000")]⟩]

/-- Update strings of blanks, and of commas where they may stand. -/
def idleStrings : Strings := { image := " \u3000\n", environment := ",\t ,", secrets := "," }

theorem readable_assorted : (Container.listToJson assorted).Readable (Json.maxNesting - 2) := by
  have hmounts : ∀ v ∈ [.array [], .object [], .object [("b", .null), ("a", .array [.bool true])]],
      Value.Readable 122 v := by
    simp only [List.forall_mem_cons]
    have hlast : ∀ m ∈ [("b", Value.null), ("a", .array [.bool true])], Value.Readable 121 m.2 := by
      simp only [List.forall_mem_cons]
      exact ⟨.null, .array (by simpa using .bool true), by simp⟩
    exact ⟨.array (by simp), .object (by simp) (by simp), .object (by decide) hlast, by simp⟩
  refine .array ?_
  simp only [assorted, List.map_cons, List.map_nil, List.forall_mem_cons]
  refine ⟨.object (by decide) ?_, .object (by decide) ?_, by simp⟩
  · simp only [List.forall_mem_cons]
    exact ⟨.null, .string _, .string _, .integer (by decide), .integer (by decide), .array hmounts,
      by simp⟩
  · simp only [List.forall_mem_cons]
    exact ⟨.array (by simp), .string _, by simp⟩

/-- A pair of containers that no idle revision touches. -/
theorem untouched_assorted :
    (Container.listToJson assorted).Readable (Json.maxNesting - 2) ∧ Container.WellNamed assorted ∧
      idleStrings.Idle ∧ Untouched assorted idleStrings := by
  have hnamed : Container.WellNamed assorted := by
    refine ⟨?_, by decide⟩
    simp only [assorted, List.forall_mem_cons]
    exact ⟨⟨"web", rfl, by decide⟩, ⟨"log \u3000", rfl, by decide⟩, by simp⟩
  have hidle : idleStrings.Idle := by
    intro kind
    cases kind <;> decide
  exact ⟨readable_assorted, hnamed, hidle, untouched_of_idle readable_assorted hnamed hidle⟩

end TaskRevision
