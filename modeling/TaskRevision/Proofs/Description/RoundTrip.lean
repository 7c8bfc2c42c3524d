import TaskRevision.Proofs.Description.Accepted
import TaskRevision.Proofs.Json.RoundTrip
/-!
# Descriptions that have been written

A description is read back from its text.  The readers of descriptions ask for objects with one known
member, the object of a container, and lists of containers; each takes the text that is written for the
thing it asks for, and what is laid out inside may be laid out in another style.

* `Container.reads_reader`, `Container.reads_list` — containers, alone and in a list;
* `reads_readAround` — **an object with one known member**, the known member first;
* `Description.parse_documentL` — a whole document, around a list in any layout;
* `Description.parse_write` — **every readable description is read back**, in either style.
-/

namespace TaskRevision

open Json (Value Members Reader Style Reads Opens IsSpace Ends)

/-! ## Containers -/

namespace Container

variable {rounds levels level : Nat} {style : Style}

theorem reads_reader {c : Container} (h : c.toJson.Readable (levels + 1))
    (hrounds : (c.toJson.writeL style level).length ≤ rounds) :
    Reads (reader rounds levels) (c.toJson.writeL style level) c := by
  obtain ⟨fields⟩ := c
  obtain ⟨hnodup, hfields⟩ := Value.readable_object_iff.1 h
  have hreads : ∀ m ∈ fields, Reads (Json.value rounds levels) (m.2.writeL style (level + 1)) m.2 :=
    fun m hm => Json.reads_value (hfields m hm) style (level + 1)
      (Nat.le_trans (Json.length_member_le hm style level) hrounds)
  obtain ⟨body, htext, hbody⟩ := Json.objectBody_writeL hnodup hreads
    (Nat.le_trans (Json.length_members_le fields style level) hrounds)
  intro before rest hbefore _
  rw [toJson, htext, List.cons_append]
  exact reader_eq_ok_iff.2 ⟨_, Json.skipGaps_append_cons hbefore (by decide) _, hbody rest⟩

/-- **The text of a list of containers is read back.** -/
theorem reads_list {containers : List Container}
    (h : (listToJson containers).Readable (levels + 2))
    (hrounds : ((listToJson containers).writeL style level).length ≤ rounds) :
    Reads (Json.list rounds (reader rounds levels)) ((listToJson containers).writeL style level)
      containers := by
  have hitems : ∀ c ∈ containers, c.toJson.Readable (levels + 1) := fun c hc =>
    Value.readable_array_iff.1 h c.toJson (List.mem_map_of_mem hc)
  have hreads : ∀ c ∈ containers, Reads (reader rounds levels) (c.toJson.writeL style (level + 1)) c :=
    fun c hc => reads_reader (hitems c hc)
      (Nat.le_trans (Json.length_item_le (List.mem_map_of_mem hc) style level) hrounds)
  have hopens : ∀ c ∈ containers, Opens (c.toJson.writeL style (level + 1)) := fun c hc =>
    Json.opens_writeL (hitems c hc) style (level + 1)
  have hlength : containers.length ≤ rounds := by
    have := Json.length_items_le (containers.map toJson) style level
    rw [List.length_map] at this
    exact Nat.le_trans this hrounds
  obtain ⟨body, htext, hbody⟩ := Json.arrayBody_writeL toJson hreads hopens hlength
  intro before rest hbefore _
  rw [listToJson, htext, List.cons_append]
  exact Json.list_eq_ok_iff.2 ⟨_, Json.skipGaps_append_cons hbefore (by decide) _, hbody rest⟩

end Container

/-! ## Objects with one known member -/

section

variable {α : Type} {key : String} {rounds levels level : Nat} {item : Reader α} {style : Style}

theorem reads_memberAround_self {x : α} {text : List Char} (h : Reads item text x) (others : Members) :
    Reads (memberAround key rounds levels item (none, others) key) (style.colonL ++ text)
      (some x, others) := by
  intro before rest hbefore hrest
  obtain ⟨gap, hcolon, hgap⟩ := Json.skipGaps_colonL style hbefore (text ++ rest)
  rw [List.append_assoc]
  exact memberAround_eq_ok_iff.2 ⟨_, hcolon, .inl ⟨rfl, rfl, x, h gap rest hgap hrest, rfl⟩⟩

theorem reads_memberAround_of_ne {found : String} {v : Value} {text : List Char}
    (h : Reads (Json.value rounds levels) text v) (hne : found ≠ key) (state : Partial α) :
    Reads (memberAround key rounds levels item state found) (style.colonL ++ text)
      (state.1, Keyed.insert found v state.2) := by
  intro before rest hbefore hrest
  obtain ⟨gap, hcolon, hgap⟩ := Json.skipGaps_colonL style hbefore (text ++ rest)
  rw [List.append_assoc]
  exact memberAround_eq_ok_iff.2 ⟨_, hcolon, .inr ⟨hne, v, h gap rest hgap hrest, rfl⟩⟩

/-- Writing members among the others leaves the known member alone. -/
theorem foldl_others (known : Option α) (members start : Members) :
    members.foldl (fun (state : Partial α) m => (state.1, Keyed.insert m.1 m.2 state.2)) (known, start)
      = (known, members.foldl (fun state m => Keyed.insert m.1 m.2 state) start) := by
  induction members generalizing start with
  | nil => rfl
  | cons m members ih => rw [List.foldl_cons, ih, List.foldl_cons]

/-- **An object with one known member is read back**, if the text of that member is. -/
theorem reads_readAround {expected : String} {x : α} {first : List Char} {others : Members}
    (hitem : Reads item first x) (hnodup : (key :: Keyed.keys others).Nodup)
    (hothers : ∀ m ∈ others, m.2.Readable levels)
    (hrounds : (Json.objectL style level key first others).length ≤ rounds) :
    Reads (readAround expected key rounds levels item)
      ('\x7b' :: Json.objectL style level key first others) (x, others) := by
  rw [List.nodup_cons] at hnodup
  have hreads : ∀ m ∈ others, ∀ state : Partial α, Reads (memberAround key rounds levels item state m.1)
      (style.colonL ++ m.2.writeL style (level + 1)) (state.1, Keyed.insert m.1 m.2 state.2) := by
    intro m hm state
    have hne : m.1 ≠ key := fun heq => hnodup.1 (heq ▸ List.mem_map_of_mem hm)
    have hvalue := Json.reads_value (hothers m hm) style (level + 1)
      (Nat.le_trans (Json.length_member_le_objectL style level key first hm) hrounds)
    exact reads_memberAround_of_ne hvalue hne state
  have hlength : others.length < rounds :=
    Nat.lt_of_lt_of_le (Json.length_lt_objectL style level key first others) hrounds
  intro before rest hbefore _
  have hbody := Json.objectBody_objectL style level (reads_memberAround_self hitem []) hreads hlength rest
  rw [foldl_others, Json.foldl_insert [] hnodup.2 (by simp), List.nil_append] at hbody
  rw [List.cons_append]
  exact readAround_eq_ok_iff.2 ⟨_, Json.skipGaps_append_cons hbefore (by decide) _, hbody⟩

end

/-! ## Documents -/

namespace Description

variable {style : Style} {level : Nat}

theorem decode_of_reads {α : Type} {read : Nat → Reader α} {text : List Char} {x : α}
    (h : Reads (read text.length) text x) : Json.decode read (String.ofList text) = .ok x := by
  have hread := h [] [] Json.isSpace_nil Json.ends_nil
  rw [List.nil_append, List.append_nil] at hread
  rw [Json.decode_eq_ok_iff, String.toList_ofList]
  exact ⟨[], hread, rfl⟩

section

variable {rounds : Nat} {first : List Char} {others : Members}

theorem reads_definition {containers : List Container}
    (hfirst : Reads (Json.list rounds (Container.reader rounds (Json.maxNesting - 4))) first containers)
    (hnodup : (Definition.containersKey :: Keyed.keys others).Nodup)
    (hothers : ∀ m ∈ others, m.2.Readable (Json.maxNesting - 2))
    (hrounds : (Json.objectL style level Definition.containersKey first others).length ≤ rounds) :
    Reads (Definition.reader rounds)
      ('\x7b' :: Json.objectL style level Definition.containersKey first others)
      ⟨containers, others⟩ := by
  intro before rest hbefore hrest
  exact Definition.reader_eq_ok_iff.2
    (reads_readAround hfirst hnodup hothers hrounds before rest hbefore hrest)

theorem reads_reader {definition : Definition} (hfirst : Reads (Definition.reader rounds) first definition)
    (hnodup : (definitionKey :: Keyed.keys others).Nodup)
    (hothers : ∀ m ∈ others, m.2.Readable (Json.maxNesting - 1))
    (hrounds : (Json.objectL style level definitionKey first others).length ≤ rounds) :
    Reads (reader rounds) ('\x7b' :: Json.objectL style level definitionKey first others)
      ⟨definition, others⟩ := by
  intro before rest hbefore hrest
  exact reader_eq_ok_iff.2
    (reads_readAround hfirst hnodup hothers hrounds before rest hbefore hrest)

end

/-- The text of a document behind its brace, with any text as the list of the containers. -/
def documentL (style : Style) (list : List Char) (others beside : Members) : List Char :=
  Json.objectL style 0 definitionKey
    ('\x7b' :: Json.objectL style 1 Definition.containersKey list others) beside

theorem writeL_toJson (description : Description) (style : Style) :
    description.toJson.writeL style 0 = '\x7b' :: documentL style
      ((Container.listToJson description.containers).writeL style 2) description.definition.others
      description.others := by
  rw [toJson, Json.writeL_object_cons, Definition.toJson, Json.writeL_object_cons]
  rfl

/-- **A document around a list is read back**, if the list is and all other members are readable. -/
theorem parse_documentL {list : List Char} {containers : List Container} {others beside : Members}
    (hlist : ∀ rounds, list.length ≤ rounds →
      Reads (Json.list rounds (Container.reader rounds (Json.maxNesting - 4))) list containers)
    (hothers : (Value.object ((Definition.containersKey, .null) :: others)).Readable (Json.maxNesting - 1))
    (hbeside : (Value.object ((definitionKey, .null) :: beside)).Readable Json.maxNesting)
    (hnamed : ∀ c ∈ containers, c.name?.isSome) :
    parse (String.ofList ('\x7b' :: documentL style list others beside))
      = .ok ⟨⟨containers, others⟩, beside⟩ := by
  obtain ⟨hothersKeys, hothersValues⟩ := Value.readable_object_iff.1
    (show (Value.object _).Readable ((Json.maxNesting - 2) + 1) from hothers)
  obtain ⟨hbesideKeys, hbesideValues⟩ := Value.readable_object_iff.1
    (show (Value.object _).Readable ((Json.maxNesting - 1) + 1) from hbeside)
  rw [List.forall_mem_cons] at hothersValues hbesideValues
  let inner := Json.objectL style 1 Definition.containersKey list others
  let rounds := ('\x7b' :: documentL style list others beside).length
  have houter : (documentL style list others beside).length ≤ rounds := by simp [rounds]
  have hobject : ('\x7b' :: inner).length ≤ (documentL style list others beside).length :=
    Json.length_first_le_objectL style 0 definitionKey ('\x7b' :: inner) beside
  have hinner : inner.length ≤ rounds := by
    rw [List.length_cons] at hobject
    omega
  have hlength : list.length ≤ rounds :=
    Nat.le_trans (Json.length_first_le_objectL style 1 Definition.containersKey list others) hinner
  have hdefinition := reads_definition (hlist rounds hlength) hothersKeys hothersValues.2 hinner
  have hdescription := reads_reader hdefinition hbesideKeys hbesideValues.2 houter
  exact parse_eq_ok_iff.2 ⟨decode_of_reads hdescription, hnamed⟩

/-- What stands first in a readable object is readable, and something else may stand there. -/
theorem readable_first {levels : Nat} {key : String} {v : Value} {members : Members}
    (h : (Value.object ((key, v) :: members)).Readable (levels + 1)) :
    v.Readable levels ∧ (Value.object ((key, .null) :: members)).Readable (levels + 1) := by
  obtain ⟨hkeys, hvalues⟩ := Value.readable_object_iff.1 h
  rw [List.forall_mem_cons] at hvalues
  refine ⟨hvalues.1, .object hkeys ?_⟩
  rw [List.forall_mem_cons]
  exact ⟨.null, hvalues.2⟩

/-- **Every readable description is read back**, in either style. -/
theorem parse_write {description : Description} (h : description.toJson.Readable Json.maxNesting)
    (hnamed : ∀ c ∈ description.containers, c.name?.isSome) (style : Style) :
    parse (description.toJson.write style) = .ok description := by
  obtain ⟨hdefinition, hbeside⟩ :=
    readable_first (show (Value.object _).Readable ((Json.maxNesting - 1) + 1) from h)
  obtain ⟨hcontainers, hothers⟩ :=
    readable_first (show (Value.object _).Readable ((Json.maxNesting - 2) + 1) from hdefinition)
  have hlist : (Container.listToJson description.containers).Readable ((Json.maxNesting - 4) + 2) :=
    hcontainers
  rw [Value.write, writeL_toJson]
  exact parse_documentL (fun rounds hrounds => Container.reads_list hlist hrounds) hothers hbeside hnamed

end Description

end TaskRevision
