import TaskRevision.Proofs.Description.Agreement
import TaskRevision.Proofs.Description.RoundTrip
import TaskRevision.Proofs.Json.Plain
import TaskRevision.Proofs.Settled
/-!
# A description carries its whole document

What a description does not name it keeps.  The other members of an object are all the members that
stand in the document under other keys, each key where it first stands and with the value that stands
last; `rows` reads the document without settling anything, to say so.  Nothing is lost on the way back
either: where the numbers of the document are plain, the text of the description is accepted again, and
taken for the very same description.

* `readApart`, `Description.rows` — the members of a document as they stand;
* `follows_readAround_apart` — **what is kept around a known member is what stands apart, settled**;
* `Description.readable_of_parse` — a description of plain numbers is readable;
* `Description.carries_of_parse` — **the whole law**.
-/

namespace TaskRevision

open Json (Value Members Reader Follows)

/-! ## Members as they stand -/

/-- Members as they stand in an object: what is under one key, and all other members. -/
abbrev Apart (α : Type) := List α × Members

/-- Reads what follows the key of a member, and puts it behind those that have been read. -/
def memberApart {α : Type} (key : String) (rounds levels : Nat) (item : Reader α) (state : Apart α)
    (found : String) : Reader (Apart α) := fun s => do
  let ((), s) ← Json.colon s
  if found = key then
    let (x, s) ← item s
    .ok ((state.1 ++ [x], state.2), s)
  else
    let (v, s) ← Json.value rounds levels s
    .ok ((state.1, state.2 ++ [(found, v)]), s)

section

variable {α : Type} {key : String} {rounds levels : Nat} {item : Reader α} {state : Apart α}
  {s t rest : List Char}

theorem memberApart_self {x : α} (hcolon : Json.skipGaps s = ':' :: t) (hitem : item t = .ok (x, rest)) :
    memberApart key rounds levels item state key s = .ok ((state.1 ++ [x], state.2), rest) := by
  have hread : Json.colon s = .ok ((), t) := Json.colon_eq_ok_iff.2 hcolon
  simp only [memberApart, hread, hitem, if_true, bind, Except.bind]

theorem memberApart_of_ne {found : String} {v : Value} (hne : found ≠ key)
    (hcolon : Json.skipGaps s = ':' :: t) (hvalue : Json.value rounds levels t = .ok (v, rest)) :
    memberApart key rounds levels item state found s
      = .ok ((state.1, state.2 ++ [(found, v)]), rest) := by
  have hread : Json.colon s = .ok ((), t) := Json.colon_eq_ok_iff.2 hcolon
  simp only [memberApart, hread, hvalue, if_neg hne, bind, Except.bind]

end

/-- Reads an object with its members as they stand. -/
def readApart {α : Type} (expected key : String) (rounds levels : Nat) (item : Reader α) :
    Reader (Apart α) :=
  Json.table expected rounds ([], []) (memberApart key rounds levels item)

/-- The members of a document, and those of each task definition in it, as they stand. -/
def Description.rows (document : String) : Except Json.Report (Apart (Apart Value)) :=
  Json.decode (fun rounds =>
    readApart "struct TaskDescriptor" definitionKey rounds (Json.maxNesting - 1)
      (readApart "struct TaskDefinition" Definition.containersKey rounds (Json.maxNesting - 2)
        (Json.value rounds (Json.maxNesting - 2)))) document

/-! ## What is kept -/

section

variable {α β : Type} {key : String} {rounds levels : Nat} {R : α → β → Prop} {item : Reader α}
  {item' : Reader β}

/-- The known member, if it has been read, is all that stands under its key, and the others are those
that stand apart, settled. -/
def Partial.Keeps (R : α → β → Prop) (state : Partial α) (rows : Apart β) : Prop :=
  List.Forall₂ R state.1.toList rows.1 ∧ state.2 = Keyed.settled rows.2

/-- **One more member is kept where it stands apart.** -/
theorem follows_memberAround_apart (hitem : Follows (fun _ => True) R item item') (found : String)
    (state : Partial α) (rows : Apart β) (hstate : state.Keeps R rows) :
    Follows (fun _ => True) (Partial.Keeps R) (memberAround key rounds levels item state found)
      (memberApart key rounds levels item' rows found) := by
  intro s next rest _ h
  obtain ⟨known, others⟩ := state
  obtain ⟨firsts, members⟩ := rows
  obtain ⟨hknown, hothers⟩ := hstate
  obtain ⟨t, hcolon, ⟨rfl, hnone, x, hx, rfl⟩ | ⟨hne, v, hv, rfl⟩⟩ := memberAround_eq_ok_iff.1 h
  · obtain ⟨y, hy, hxy, -⟩ := hitem t x rest trivial hx
    dsimp only at hnone hknown hothers
    rw [hnone, Option.toList_none, List.forall₂_nil_left_iff] at hknown
    refine ⟨_, memberApart_self hcolon hy, ⟨?_, hothers⟩, trivial⟩
    rw [hknown]
    exact .cons hxy .nil
  · refine ⟨_, memberApart_of_ne hne hcolon hv, ⟨hknown, ?_⟩, trivial⟩
    dsimp only at hothers
    rw [hothers, Keyed.settled_append]

/-- **What is kept around a known member is what stands apart, settled.** -/
theorem follows_readAround_apart (expected : String)
    (hitem : Follows (fun _ => True) R item item') :
    Follows (fun _ => True)
      (fun held rows => ∃ y, rows.1 = [y] ∧ R held.1 y ∧ held.2 = Keyed.settled rows.2)
      (readAround expected key rounds levels item) (readApart expected key rounds levels item') := by
  rintro s ⟨x, others⟩ rest _ h
  obtain ⟨t, hopen, hbody⟩ := readAround_eq_ok_iff.1 h
  have hstart : Partial.Keeps R (none, []) ([], []) := ⟨.nil, rfl⟩
  obtain ⟨⟨firsts, members⟩, hrows, ⟨hknown, hothers⟩, -⟩ := Follows.objectBody Json.passable_true
    (follows_memberAround_apart hitem) rounds hstart t (some x, others) rest trivial hbody
  refine ⟨_, Json.table_eq_ok_iff.2 ⟨t, hopen, hrows⟩, ?_, trivial⟩
  cases hknown with
  | cons hxy hnil =>
      cases hnil
      exact ⟨_, rfl, hxy, hothers⟩

end

/-- The task definition holds what stands in its object. -/
def Definition.Holds (definition : Definition) (rows : Apart Value) : Prop :=
  rows.1 = [Container.listToJson definition.containers] ∧ definition.others = Keyed.settled rows.2

theorem Definition.follows_reader_apart (rounds : Nat) :
    Follows (fun _ => True) Holds (reader rounds)
      (readApart "struct TaskDefinition" containersKey rounds (Json.maxNesting - 2)
        (Json.value rounds (Json.maxNesting - 2))) := by
  intro s definition rest _ h
  obtain ⟨rows, hrows, ⟨list, hlist, rfl, hothers⟩, -⟩ :=
    follows_readAround_apart "struct TaskDefinition"
      (Container.follows_list_reader rounds (Json.maxNesting - 4)) s _ rest trivial (reader_eq_ok_iff.1 h)
  exact ⟨rows, hrows, ⟨hlist, hothers⟩, trivial⟩

/-- **The members of an accepted document, as they stand, settle to what the description holds.** -/
theorem Description.rows_of_parse {document : String} {description : Description}
    (h : parse document = .ok description) : ∃ inner outer,
      rows document = .ok ([([Container.listToJson description.containers], inner)], outer) ∧
      description.definition.others = Keyed.settled inner ∧ description.others = Keyed.settled outer := by
  obtain ⟨rest, hread, hrest⟩ := Json.decode_eq_ok_iff.1 (parse_eq_ok_iff.1 h).1
  obtain ⟨⟨_, outer⟩, hrows, ⟨⟨_, inner⟩, rfl, ⟨rfl, hinner⟩, houter⟩, -⟩ :=
    follows_readAround_apart "struct TaskDescriptor"
      (Definition.follows_reader_apart document.toList.length) _ _ rest trivial (reader_eq_ok_iff.1 hread)
  exact ⟨inner, outer, Json.decode_eq_ok_iff.2 ⟨rest, hrows, hrest⟩, hinner, houter⟩

/-! ## What can be written -/

theorem Surrounds.readable {α : Type} {key : String} {R : α → Value → Prop} {levels : Nat}
    {held : α × Members} {v known : Value} (h : Surrounds key R held v) (hv : v.Readable (levels + 1))
    (hknown : ∀ w, R held.1 w → w.Readable levels → known.Readable levels) :
    (Value.object ((key, known) :: held.2)).Readable (levels + 1) := by
  obtain ⟨w, members, rfl, hlookup, hheld, hothers⟩ := h
  obtain ⟨hnodup, hmembers⟩ := Value.readable_object_iff.1 hv
  have hmem : (key, w) ∈ members := (Keyed.lookup_eq_some_iff_mem hnodup).1 hlookup
  have hkeys : Keyed.keys held.2 = (Keyed.keys members).filter fun name => name ≠ key := by
    rw [hothers, Keyed.keys, Keyed.keys, List.filter_map]
    rfl
  refine .object ?_ (List.forall_mem_cons.2 ⟨hknown w hheld (hmembers (key, w) hmem), ?_⟩)
  · rw [Keyed.keys_cons, hkeys, List.nodup_cons]
    exact ⟨by simp, hnodup.filter _⟩
  · intro member hmember
    rw [hothers] at hmember
    exact hmembers member (List.mem_of_mem_filter hmember)

namespace Description

theorem IsOf.readable {description : Description} {root : Value} (h : description.IsOf root)
    (hroot : root.Readable Json.maxNesting) : description.toJson.Readable Json.maxNesting := by
  have houter : root.Readable ((Json.maxNesting - 1) + 1) := hroot
  refine Surrounds.readable h houter fun w hw hreadable => ?_
  have hinner : w.Readable ((Json.maxNesting - 2) + 1) := hreadable
  refine Surrounds.readable hw hinner fun list hlist hcontainers => ?_
  rw [← hlist]
  exact hcontainers

/-- A document of plain numbers is accepted as a readable description. -/
theorem readable_of_parse {document : String} {description : Description}
    (hplain : Json.PlainNumbers document) (h : parse document = .ok description) :
    description.toJson.Readable Json.maxNesting := by
  obtain ⟨root, hroot, hof⟩ := exists_value_of_parse h
  exact hof.readable (Json.readable_of_parse hplain hroot)

/-! ## The law -/

/-- The description carries all that stands in the document. -/
structure Carries (document : String) (description : Description) : Prop where
  /-- Its text is accepted, in either style, and taken for the same description; so the containers and
  the others at both levels come back in their order, and so does the text. -/
  again : Json.PlainNumbers document → ∀ style, parse (description.toJson.write style) = .ok description
  /-- The others are all members that stand in the document beside the task definition, and in that
  beside the containers: each key at its first place, with its last value. -/
  whole : ∃ inner outer,
    rows document = .ok ([([Container.listToJson description.containers], inner)], outer) ∧
    description.definition.others = Keyed.settled inner ∧ description.others = Keyed.settled outer

/-- **A description carries the whole document that it is accepted for.** -/
theorem carries_of_parse {document : String} {description : Description}
    (h : parse document = .ok description) : Carries document description where
  again hplain style := parse_write (readable_of_parse hplain h) (parse_eq_ok_iff.1 h).2 style
  whole := rows_of_parse h

theorem plain_scattered : Json.PlainNumbers scattered := by
  have hnumerals : Json.numeralsL scattered.toList = [['1'], ['0'], ['2'], ['-', '3']] := by cbv
  unfold Json.PlainNumbers Json.PlainL
  rw [hnumerals]
  simp only [List.forall_mem_cons]
  exact ⟨⟨1, by decide, rfl⟩, ⟨0, by decide, rfl⟩, ⟨2, by decide, rfl⟩, ⟨-3, by decide, rfl⟩, by simp⟩

/-- The description of the scattered document carries all of it, and is read back as it is gathered. -/
theorem carries_scattered : ∃ description, parse scattered = .ok description ∧
    Json.PlainNumbers scattered ∧ Carries scattered description ∧ parse gathered = .ok description := by
  obtain ⟨description, hparse, hgathered⟩ := parse_scattered
  have hcarries := carries_of_parse hparse
  have hagain := hcarries.again plain_scattered .compact
  rw [show description.toJson.write .compact = gathered from hgathered] at hagain
  exact ⟨description, hparse, plain_scattered, hcarries, hagain⟩

end Description

end TaskRevision
