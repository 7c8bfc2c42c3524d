import TaskRevision.Proofs.Description.Accepted
import TaskRevision.Proofs.Json.Follows
/-!
# A description and the value of its document

A document that is read as a description can be read as a value as well, and the two readings agree:
the value is an object that holds the task definition under its key, and the other members of the
description are the other members of this object, in their order; and so for the containers in the task
definition.  Where a key stands twice the two readings settle it alike.

* `Surrounds` — an object with one known member, and what is around it;
* `follows_list`, `follows_readAround` — readers of one kind of value **follow the reader of any value**;
* `Description.exists_value_of_parse` — the value of an accepted document.
-/

namespace TaskRevision

open Json (Value Members Reader Follows)

/-! ## What is around a known member -/

/-- The value is an object that holds under the key what is known, and around it, in order, the others. -/
def Surrounds {α : Type} (key : String) (R : α → Value → Prop) (held : α × Members) (v : Value) : Prop :=
  ∃ w members, v = .object members ∧ members.lookup key = some w ∧ R held.1 w ∧
    held.2 = members.filter fun member => member.1 ≠ key

/-- The value is that of the task definition. -/
def Definition.IsOf (definition : Definition) (v : Value) : Prop :=
  Surrounds containersKey (fun containers v => v = Container.listToJson containers)
    (definition.containers, definition.others) v

/-- The value is that of a document with the description. -/
def Description.IsOf (description : Description) (v : Value) : Prop :=
  Surrounds definitionKey Definition.IsOf (description.definition, description.others) v

/-! ## Readers of one kind of value -/

section

variable {α : Type} {rounds levels : Nat} {R : α → Value → Prop} {item : Reader α}

/-- The reader of a list follows the reader of values, if that of its items does. -/
theorem follows_list (hitem : Follows (fun _ => True) R item (Json.value rounds levels)) :
    Follows (fun _ => True) (fun xs v => ∃ vs, v = .array vs ∧ List.Forall₂ R xs vs)
      (Json.list rounds item) (Json.value rounds (levels + 1)) := by
  intro s xs rest _ h
  obtain ⟨t, hopen, hbody⟩ := Json.list_eq_ok_iff.1 h
  obtain ⟨vs, hvs, hrelated, -⟩ :=
    Follows.arrayBody Json.passable_true hitem rounds t xs rest trivial hbody
  refine ⟨.array vs, ?_, ⟨vs, rfl, hrelated⟩, trivial⟩
  rw [Json.value, Json.valueWith_eq_ok_iff, hopen]
  exact .array (bind_eq_ok_iff.2 ⟨_, hvs, rfl⟩)

/-- What has been read around a known member, and the members of the value that have been read. -/
def Partial.IsOf (key : String) (R : α → Value → Prop) (state : Partial α) (members : Members) : Prop :=
  (∀ x, state.1 = some x → ∃ v, members.lookup key = some v ∧ R x v) ∧
    state.2 = members.filter fun member => member.1 ≠ key

/-- **A member around which others are read follows a member of any object.** -/
theorem follows_memberAround {key : String}
    (hitem : Follows (fun _ => True) R item (Json.value rounds levels)) (found : String)
    (state : Partial α) (members : Members) (hstate : state.IsOf key R members) :
    Follows (fun _ => True) (Partial.IsOf key R) (memberAround key rounds levels item state found)
      (Json.keep (Json.value rounds levels) members found) := by
  intro s next rest _ h
  obtain ⟨hknown, hothers⟩ := hstate
  obtain ⟨t, hcolon, ⟨rfl, -, x, hx, rfl⟩ | ⟨hne, v, hv, rfl⟩⟩ := memberAround_eq_ok_iff.1 h
  -- the known member is found under its key, and does not show among the others
  · obtain ⟨v, hv, hxv, -⟩ := hitem t x rest trivial hx
    refine ⟨_, Json.keep_eq_ok_iff.2 ⟨t, v, hcolon, hv, rfl⟩, ⟨?_, ?_⟩, trivial⟩
    · rintro _ ⟨⟩
      exact ⟨v, Keyed.lookup_insert_self found v members, hxv⟩
    · rw [Keyed.filter_insert fun name => decide (name ≠ found), if_neg (by simp)]
      exact hothers
  -- another one settles alike in the object and among the others
  · refine ⟨_, Json.keep_eq_ok_iff.2 ⟨t, v, hcolon, hv, rfl⟩, ⟨?_, ?_⟩, trivial⟩
    · intro x hx
      obtain ⟨w, hw, hxw⟩ := hknown x hx
      exact ⟨w, by rw [Keyed.lookup_insert_of_ne v members (Ne.symm hne), hw], hxw⟩
    · rw [Keyed.filter_insert fun name => decide (name ≠ key), if_pos (by simp [hne])]
      exact congrArg (Keyed.insert found v) hothers

/-- **The reader of an object with one known member follows the reader of values.** -/
theorem follows_readAround (expected key : String)
    (hitem : Follows (fun _ => True) R item (Json.value rounds levels)) :
    Follows (fun _ => True) (Surrounds key R) (readAround expected key rounds levels item)
      (Json.value rounds (levels + 1)) := by
  rintro s ⟨x, others⟩ rest _ h
  obtain ⟨t, hopen, hbody⟩ := readAround_eq_ok_iff.1 h
  have hstart : Partial.IsOf key R (none, []) [] := ⟨by simp, rfl⟩
  obtain ⟨members, hmembers, ⟨hknown, hothers⟩, -⟩ := Follows.objectBody Json.passable_true
    (follows_memberAround hitem) rounds hstart t (some x, others) rest trivial hbody
  obtain ⟨v, hv, hxv⟩ := hknown x rfl
  refine ⟨.object members, ?_, ⟨v, members, rfl, hv, hxv, hothers⟩, trivial⟩
  rw [Json.value, Json.valueWith_eq_ok_iff, hopen]
  exact .object (bind_eq_ok_iff.2 ⟨_, hmembers, rfl⟩)

end

/-! ## Descriptions -/

/-- What is related item by item through a function is the image under it. -/
theorem eq_map_of_forall₂ {α β : Type} {f : α → β} {xs : List α} {ys : List β}
    (h : List.Forall₂ (fun x y => y = f x) xs ys) : ys = xs.map f := by
  induction h with
  | nil => rfl
  | cons hxy _ ih => rw [List.map_cons, hxy, ih]

theorem Container.follows_reader (rounds levels : Nat) :
    Follows (fun _ => True) (fun c v => v = Container.toJson c) (reader rounds levels)
      (Json.value rounds (levels + 1)) := by
  intro s c rest _ h
  obtain ⟨t, hopen, hbody⟩ := reader_eq_ok_iff.1 h
  refine ⟨c.toJson, ?_, rfl, trivial⟩
  rw [Json.value, Json.valueWith_eq_ok_iff, hopen]
  exact .object (bind_eq_ok_iff.2 ⟨_, hbody, rfl⟩)

/-- The reader of a list of containers comes to the list as a value. -/
theorem Container.follows_list_reader (rounds levels : Nat) :
    Follows (fun _ => True) (fun containers v => v = listToJson containers)
      (Json.list rounds (reader rounds levels)) (Json.value rounds (levels + 2)) := by
  intro s containers rest _ h
  obtain ⟨_, hv, ⟨vs, rfl, hall⟩, -⟩ :=
    follows_list (follows_reader rounds levels) s containers rest trivial h
  refine ⟨_, hv, ?_, trivial⟩
  rw [eq_map_of_forall₂ hall]
  rfl

theorem Definition.follows_reader (rounds : Nat) :
    Follows (fun _ => True) IsOf (reader rounds) (Json.value rounds (Json.maxNesting - 1)) := by
  intro s definition rest _ h
  exact follows_readAround "struct TaskDefinition" containersKey
    (Container.follows_list_reader rounds (Json.maxNesting - 4)) s _ rest trivial
    (reader_eq_ok_iff.1 h)

namespace Description

theorem follows_reader (rounds : Nat) :
    Follows (fun _ => True) IsOf (reader rounds) (Json.value rounds Json.maxNesting) := by
  intro s description rest _ h
  exact follows_readAround "struct TaskDescriptor" definitionKey (Definition.follows_reader rounds) s _
    rest trivial (reader_eq_ok_iff.1 h)

/-- **An accepted document has a value, and the description is of it.** -/
theorem exists_value_of_parse {document : String} {description : Description}
    (h : parse document = .ok description) :
    ∃ root, Json.parse document = .ok root ∧ description.IsOf root := by
  obtain ⟨rest, hread, hrest⟩ := Json.decode_eq_ok_iff.1 (parse_eq_ok_iff.1 h).1
  obtain ⟨root, hroot, hof, -⟩ := follows_reader _ _ description rest trivial hread
  exact ⟨root, Json.decode_eq_ok_iff.2 ⟨rest, hroot, hrest⟩, hof⟩

end Description

/-! ## A document in disorder -/

/-- A document with tags at both levels and, at either, a key that stands twice. -/
def scattered : String :=
  "\x7b\"tags\":1,\n\"taskDefinition\" : \x7b\"volumes\":null,"
    ++ "\"containerDefinitions\":[\x7b\"name\":\"web\"\x7d],\n\"tags\":0,\"volumes\":[ 2 ]\x7d,"
    ++ "\"tags\":[\x7b\"k\":-3\x7d]\x7d"

/-- The same document as its description is written. -/
def gathered : String :=
  "\x7b\"taskDefinition\":\x7b\"containerDefinitions\":[\x7b\"name\":\"web\"\x7d],"
    ++ "\"volumes\":[2],\"tags\":0\x7d,\"tags\":[\x7b\"k\":-3\x7d]\x7d"

/-- The scattered document is accepted, and gathered in its description. -/
theorem parse_scattered : ∃ description, Description.parse scattered = .ok description ∧
    description.toJson.compact = gathered := by
  have hread : ((Description.parse scattered).toOption.map fun d => d.toJson.compact) = some gathered := by
    decide +kernel
  obtain ⟨description, hparse, hgathered⟩ := Option.map_eq_some_iff.1 hread
  exact ⟨description, toOption_eq_some_iff.1 hparse, hgathered⟩

end TaskRevision
