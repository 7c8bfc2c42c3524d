import TaskRevision.Description
import TaskRevision.Proofs.Json.Accepted
/-!
# What the readers of descriptions accept

The readers of containers and of objects with one known member, described like those of any document
by the texts that they accept.

* `memberAround_eq_ok_iff`, `readAround_eq_ok_iff` — **objects with one known member**;
* `Description.parse_eq_ok_iff` — whole documents, with the names of the containers.
-/

namespace TaskRevision

open Json (Value Members Reader)

/-! ## Containers -/

theorem Container.reader_eq_ok_iff {rounds levels : Nat} {s rest : List Char} {c : Container} :
    reader rounds levels s = .ok (c, rest) ↔ ∃ t, Json.skipGaps s = '\x7b' :: t ∧
      Json.objectBody rounds [] (Json.keep (Json.value rounds levels)) t = .ok (c.fields, rest) := by
  obtain ⟨fields⟩ := c
  simp only [reader, bind_eq_ok_iff, Prod.exists, Json.table_eq_ok_iff, Except.ok.injEq, Prod.mk.injEq,
    Container.mk.injEq]
  constructor
  · rintro ⟨_, _, ⟨t, hopen, hbody⟩, rfl, rfl⟩
    exact ⟨t, hopen, hbody⟩
  · rintro ⟨t, hopen, hbody⟩
    exact ⟨fields, rest, ⟨t, hopen, hbody⟩, rfl, rfl⟩

/-! ## Objects with one known member -/

section

variable {α : Type} {key : String} {rounds levels : Nat} {item : Reader α} {s rest : List Char}

/-- A member is a colon and what the reader of its key accepts; the known one may not stand twice. -/
theorem memberAround_eq_ok_iff {state next : Partial α} {found : String} :
    memberAround key rounds levels item state found s = .ok (next, rest) ↔
      ∃ t, Json.skipGaps s = ':' :: t ∧
        (found = key ∧ state.1 = none ∧ (∃ x, item t = .ok (x, rest) ∧ next = (some x, state.2)) ∨
          found ≠ key ∧ ∃ v, Json.value rounds levels t = .ok (v, rest) ∧
            next = (state.1, Keyed.insert found v state.2)) := by
  by_cases hkey : found = key
  · simp only [memberAround, if_pos hkey, bind_eq_ok_iff, Prod.exists, Json.known_eq_ok_iff,
      Except.ok.injEq, Prod.mk.injEq]
    constructor
    · rintro ⟨x, _, ⟨hnone, t, hcolon, hitem⟩, rfl, rfl⟩
      exact ⟨t, hcolon, .inl ⟨hkey, hnone, x, hitem, rfl⟩⟩
    · rintro ⟨t, hcolon, ⟨-, hnone, x, hitem, rfl⟩ | ⟨hne, -⟩⟩
      · exact ⟨x, rest, ⟨hnone, t, hcolon, hitem⟩, rfl, rfl⟩
      · exact absurd hkey hne
  · simp only [memberAround, if_neg hkey, bind_eq_ok_iff, Prod.exists, Json.keep_eq_ok_iff,
      Except.ok.injEq, Prod.mk.injEq]
    constructor
    · rintro ⟨_, _, ⟨t, v, hcolon, hitem, rfl⟩, rfl, rfl⟩
      exact ⟨t, hcolon, .inr ⟨hkey, v, hitem, rfl⟩⟩
    · rintro ⟨t, hcolon, ⟨heq, -⟩ | ⟨-, v, hitem, rfl⟩⟩
      · exact absurd heq hkey
      · exact ⟨_, rest, ⟨t, v, hcolon, hitem, rfl⟩, rfl, rfl⟩

/-- The object has its known member in the end. -/
theorem readAround_eq_ok_iff {expected : String} {x : α} {others : Members} :
    readAround expected key rounds levels item s = .ok ((x, others), rest) ↔
      ∃ t, Json.skipGaps s = '\x7b' :: t ∧
        Json.objectBody rounds (none, []) (memberAround key rounds levels item) t
          = .ok ((some x, others), rest) := by
  simp only [readAround, bind_eq_ok_iff, Prod.exists, Json.table_eq_ok_iff]
  constructor
  · rintro ⟨known, kept, _, ⟨t, hopen, hbody⟩, h⟩
    cases known with
    | none => cases h
    | some y => cases h; exact ⟨t, hopen, hbody⟩
  · rintro ⟨t, hopen, hbody⟩
    exact ⟨some x, others, rest, ⟨t, hopen, hbody⟩, rfl⟩

end

/-! ## Descriptions -/

theorem Definition.reader_eq_ok_iff {rounds : Nat} {s rest : List Char} {definition : Definition} :
    reader rounds s = .ok (definition, rest) ↔
      readAround "struct TaskDefinition" containersKey rounds (Json.maxNesting - 2)
        (Json.list rounds (Container.reader rounds (Json.maxNesting - 4))) s
          = .ok ((definition.containers, definition.others), rest) := by
  obtain ⟨containers, others⟩ := definition
  simp only [reader, bind_eq_ok_iff, Prod.exists, Except.ok.injEq, Prod.mk.injEq, Definition.mk.injEq]
  constructor
  · rintro ⟨_, _, _, hread, ⟨rfl, rfl⟩, rfl⟩
    exact hread
  · intro hread
    exact ⟨containers, others, rest, hread, ⟨rfl, rfl⟩, rfl⟩

namespace Description

theorem reader_eq_ok_iff {rounds : Nat} {s rest : List Char} {description : Description} :
    reader rounds s = .ok (description, rest) ↔
      readAround "struct TaskDescriptor" definitionKey rounds (Json.maxNesting - 1)
        (Definition.reader rounds) s = .ok ((description.definition, description.others), rest) := by
  obtain ⟨definition, others⟩ := description
  simp only [reader, bind_eq_ok_iff, Prod.exists, Except.ok.injEq, Prod.mk.injEq, Description.mk.injEq]
  constructor
  · rintro ⟨_, _, _, hread, ⟨rfl, rfl⟩, rfl⟩
    exact hread
  · intro hread
    exact ⟨definition, others, rest, hread, ⟨rfl, rfl⟩, rfl⟩

/-- **A document is accepted** if the reader accepts it and every container has a name. -/
theorem parse_eq_ok_iff {document : String} {description : Description} :
    parse document = .ok description ↔
      Json.decode reader document = .ok description ∧ ∀ c ∈ description.containers, c.name?.isSome := by
  rw [parse]
  cases hread : Json.decode reader document with
  | error report => simp
  | ok found =>
      have hnamed : found.containers.findIdx? (·.name?.isNone) = none ↔
          ∀ c ∈ found.containers, c.name?.isSome := by
        simp [List.findIdx?_eq_none_iff]
      cases hfind : found.containers.findIdx? (·.name?.isNone) with
      | none =>
          have hall := hnamed.1 hfind
          simp only [hfind, Except.ok.injEq]
          constructor
          · rintro rfl
            exact ⟨rfl, hall⟩
          · exact And.left
      | some position =>
          simp only [hfind, Except.ok.injEq]
          constructor
          · intro h
            cases h
          · rintro ⟨rfl, hall⟩
            rw [hnamed.2 hall] at hfind
            cases hfind

end Description

end TaskRevision
