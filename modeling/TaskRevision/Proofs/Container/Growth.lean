import TaskRevision.Container.Operation
import TaskRevision.Proofs.Container.Fields
import TaskRevision.Proofs.Index.Places
/-!
# Containers only grow

An operation either is refused, and then the container is what it was, or it writes one value into one
field (`attempt_eq`).  So fields are never taken away and never moved, and no container is renamed:
what is written into the field of the name is a list or an object, and only where no text stands.

Lists and objects grow at their ends.  That is what keeps the positions in an index true over a whole run.

* `attempt_eq` — **all that an operation can do**;
* `step_perform` — what one operation does to a container;
* `grown_performAll` — what a row of operations does, each of them at its turn.
-/

namespace TaskRevision.Container

open Json (Value Members)

/-! ## What an operation writes -/

/-- The field that the operation is about. -/
def Operation.field : Operation → String
  | .setImage _ => imageField
  | .openArray field | .push field _ => field
  | .openObject field | .insert field _ _ => field

/-- The value that the operation writes into its field, unless it is refused. -/
def Operation.written? (c : Container) : Operation → Option Value
  | .setImage image => some (.string image)
  | .openArray field => (c.array? field).map .array
  | .push field item => (c.array? field).map fun items => .array (items ++ [item])
  | .openObject field => (c.object? field).map .object
  | .insert field key value =>
    (c.object? field).map fun members => .object (Keyed.insert key value members)

variable {c : Container} {operation : Operation}

/-- **All that an operation can do.**  It writes one value into its field, or it is refused and nothing
has changed. -/
theorem attempt_eq (c : Container) (operation : Operation) :
    c.attempt operation = match operation.written? c with
      | some v => (c.set operation.field v, true)
      | none => (c, false) := by
  cases operation with
  | setImage image => rfl
  | openArray field | push field item =>
      cases h : c.array? field with
      | none => simp [attempt, Operation.written?, h, openArray_of_not_array? h]
      | some items => simp [attempt, Operation.written?, Operation.field, h, openArray_of_array? h]
  | openObject field | insert field key value =>
      cases h : c.object? field with
      | none => simp [attempt, Operation.written?, h, openObject_of_not_object? h]
      | some members => simp [attempt, Operation.written?, Operation.field, h, openObject_of_object? h]

theorem perform_of_written? {v : Value} (h : operation.written? c = some v) :
    c.perform operation = c.set operation.field v := by
  rw [perform, attempt_eq, h]

theorem perform_of_not_written? (h : operation.written? c = none) : c.perform operation = c := by
  rw [perform, attempt_eq, h]

theorem perform?_of_written? {v : Value} (h : operation.written? c = some v) :
    c.perform? operation = some (c.perform operation) := by
  rw [perform?, perform, attempt_eq, h]

theorem perform?_of_not_written? (h : operation.written? c = none) : c.perform? operation = none := by
  rw [perform?, attempt_eq, h]

/-! ## What an operation asks for, and what it leaves -/

/-- The list that an edit of a field has to start from: the one that stands there, or an empty one if
the field is missing or null. -/
def Lists (c : Container) (field : String) (items : List Value) : Prop :=
  c.get? field = some (.array items) ∨
    items = [] ∧ (c.get? field = none ∨ c.get? field = some .null)

/-- The members that an edit of a field has to start from, likewise. -/
def Holds (c : Container) (field : String) (members : Members) : Prop :=
  c.get? field = some (.object members) ∨
    members = [] ∧ (c.get? field = none ∨ c.get? field = some .null)

/-- The operation can be done where this is found in its field. -/
def Operation.Admits : Operation → Option Value → Prop
  | .setImage _, _ => True
  | .openArray _, found | .push _ _, found =>
    found = none ∨ found = some .null ∨ ∃ items, found = some (.array items)
  | .openObject _, found | .insert _ _ _, found =>
    found = none ∨ found = some .null ∨ ∃ members, found = some (.object members)

/-- What the container `after` shows in the field of an operation that was done to `c`. -/
def Operation.Leaves (c after : Container) : Operation → Prop
  | .setImage image => after.image? = some image
  | .openArray field => ∃ items, c.Lists field items ∧ c.openArray field = (after, some items) ∧
      after.get? field = some (.array items) ∧ after.namedEntries field = c.namedEntries field
  | .push field item => ∃ items, c.Lists field items ∧
      after.get? field = some (.array (items ++ [item])) ∧
      after.namedEntries field
        = c.namedEntries field ++ ((nameOf? item).map fun name => (items.length, name)).toList
  | .openObject field => ∃ members, c.Holds field members ∧
      c.openObject field = (after, some members) ∧ after.get? field = some (.object members) ∧
      (field = labelsField → after.labelKeys = c.labelKeys)
  | .insert field key value => ∃ members, c.Holds field members ∧
      after.get? field = some (.object (Keyed.insert key value members)) ∧
      (field = labelsField → after.labelKeys
        = c.labelKeys ++ if key ∈ Keyed.keys members then [] else [(members.length, key)])

theorem exists_array?_iff {field : String} : (∃ items, c.array? field = some items) ↔
    c.get? field = none ∨ c.get? field = some .null ∨
      ∃ items, c.get? field = some (.array items) := by
  simp only [array?_eq_some_iff, exists_or, exists_eq_left]
  rw [or_comm, or_assoc]

theorem exists_object?_iff {field : String} : (∃ members, c.object? field = some members) ↔
    c.get? field = none ∨ c.get? field = some .null ∨
      ∃ members, c.get? field = some (.object members) := by
  simp only [object?_eq_some_iff, exists_or, exists_eq_left]
  rw [or_comm, or_assoc]

theorem admits_iff :
    operation.Admits (c.get? operation.field) ↔ ∃ v, operation.written? c = some v := by
  cases operation with
  | setImage image => simp [Operation.Admits, Operation.written?]
  | openArray field | push field item =>
      simp [Operation.Admits, Operation.written?, Operation.field, ← exists_array?_iff]
  | openObject field | insert field key value =>
      simp [Operation.Admits, Operation.written?, Operation.field, ← exists_object?_iff]

theorem keysOf_insert (key : String) (v : Value) (members : Members) :
    keysOf (Keyed.insert key v members)
      = keysOf members ++ if key ∈ Keyed.keys members then [] else [(members.length, key)] := by
  split
  · next hknown => rw [keysOf_eq, Keyed.keys_insert_of_mem v hknown, ← keysOf_eq, List.append_nil]
  · next hnew => rw [Keyed.insert_of_not_mem v hnew, keysOf_append]

theorem namesOf_append (items : List Value) (item : Value) :
    namesOf (items ++ [item])
      = namesOf items ++ ((nameOf? item).map fun name => (items.length, name)).toList := by
  cases h : nameOf? item with
  | none => simp [namesOf_append_of_none items h]
  | some name => simp [namesOf_append_of_some items h]

theorem leaves_perform {v : Value} (h : operation.written? c = some v) :
    operation.Leaves c (c.perform operation) := by
  rw [perform_of_written? h]
  cases operation with
  | setImage image =>
      cases h
      exact image?_eq_some_iff.2 (get?_set_self ..)
  | openArray field =>
      obtain ⟨items, hitems, rfl⟩ := Option.map_eq_some_iff.1 h
      refine ⟨items, array?_eq_some_iff.1 hitems, openArray_of_array? hitems, get?_set_self .., ?_⟩
      rw [Operation.field, namedEntries_set_self, namedEntries_of_array? hitems]
  | push field item =>
      obtain ⟨items, hitems, rfl⟩ := Option.map_eq_some_iff.1 h
      refine ⟨items, array?_eq_some_iff.1 hitems, get?_set_self .., ?_⟩
      rw [Operation.field, namedEntries_set_self, namedEntries_of_array? hitems, namesOf_append]
  | openObject field =>
      obtain ⟨members, hmembers, rfl⟩ := Option.map_eq_some_iff.1 h
      refine ⟨members, object?_eq_some_iff.1 hmembers, openObject_of_object? hmembers,
        get?_set_self .., ?_⟩
      rintro rfl
      rw [Operation.field, labelKeys_set_self, labelKeys_of_object? hmembers]
  | insert field key value =>
      obtain ⟨members, hmembers, rfl⟩ := Option.map_eq_some_iff.1 h
      refine ⟨members, object?_eq_some_iff.1 hmembers, get?_set_self .., ?_⟩
      rintro rfl
      rw [Operation.field, labelKeys_set_self, labelKeys_of_object? hmembers, keysOf_insert]

/-! ## What no operation does -/

theorem get?_perform_of_ne {other : String} (h : other ≠ operation.field) :
    (c.perform operation).get? other = c.get? other := by
  cases hwritten : operation.written? c with
  | none => rw [perform_of_not_written? hwritten]
  | some v => rw [perform_of_written? hwritten, get?_set_of_ne c v h]

theorem field_mem_keys (h : operation.written? c = none) : operation.field ∈ Keyed.keys c.fields := by
  by_contra hmissing
  have hnone : c.get? operation.field = none := Keyed.lookup_eq_none_iff.2 hmissing
  have hadmits : operation.Admits (c.get? operation.field) := by
    rw [hnone]
    cases operation <;> simp [Operation.Admits]
  obtain ⟨v, hv⟩ := admits_iff.1 hadmits
  cases h.symm.trans hv

/-- The fields stay in their places, and the field of the operation comes behind them if it is new. -/
theorem keys_perform (c : Container) (operation : Operation) :
    Keyed.keys (c.perform operation).fields
      = Keyed.keys c.fields ++
          if operation.field ∈ Keyed.keys c.fields then [] else [operation.field] := by
  cases h : operation.written? c with
  | none => rw [perform_of_not_written? h, if_pos (field_mem_keys h), List.append_nil]
  | some v =>
      rw [perform_of_written? h, set, Keyed.keys_insert]
      split
      · rw [List.append_nil]
      · rfl

theorem name?_of_array? {items : List Value} (h : c.array? nameKey = some items) : c.name? = none := by
  rw [name?]
  rcases array?_eq_some_iff.1 h with hget | ⟨-, hget | hget⟩ <;> rw [hget] <;> rfl

theorem name?_of_object? {members : Members} (h : c.object? nameKey = some members) :
    c.name? = none := by
  rw [name?]
  rcases object?_eq_some_iff.1 h with hget | ⟨-, hget | hget⟩ <;> rw [hget] <;> rfl

/-- What is written into the field of the name is no text, and takes the place of none. -/
theorem name?_of_written? {v : Value} (hfield : operation.field = nameKey)
    (h : operation.written? c = some v) : c.name? = none ∧ v.string? = none := by
  cases operation with
  | setImage image => cases (by decide : imageField ≠ nameKey) hfield
  | openArray field | push field item =>
      cases hfield
      obtain ⟨items, hitems, rfl⟩ := Option.map_eq_some_iff.1 h
      exact ⟨name?_of_array? hitems, rfl⟩
  | openObject field | insert field key value =>
      cases hfield
      obtain ⟨members, hmembers, rfl⟩ := Option.map_eq_some_iff.1 h
      exact ⟨name?_of_object? hmembers, rfl⟩

/-- No operation renames a container. -/
theorem name?_perform (c : Container) (operation : Operation) :
    (c.perform operation).name? = c.name? := by
  by_cases hfield : nameKey = operation.field
  · cases h : operation.written? c with
    | none => rw [perform_of_not_written? h]
    | some v =>
        obtain ⟨hnone, htext⟩ := name?_of_written? hfield.symm h
        rw [hnone, perform_of_written? h, ← hfield, name?, get?_set_self, Option.bind_some, htext]
  · rw [name?, name?, get?_perform_of_ne hfield]

/-! ## Names and keys found before -/

theorem namedEntries_of_object? {field : String} {members : Members}
    (h : c.object? field = some members) : c.namedEntries field = [] := by
  rw [namedEntries]
  rcases object?_eq_some_iff.1 h with hget | ⟨-, hget | hget⟩ <;> rw [hget] <;> rfl

theorem labelKeys_of_array? {items : List Value} (h : c.array? labelsField = some items) :
    c.labelKeys = [] := by
  rw [labelKeys]
  rcases array?_eq_some_iff.1 h with hget | ⟨-, hget | hget⟩ <;> rw [hget] <;> rfl

/-- The names in a list keep their places, whatever is done, if it is not the image that is set. -/
theorem namedEntries_prefix_perform (c : Container) (operation : Operation) {field : String}
    (hfield : field ≠ imageField) :
    c.namedEntries field <+: (c.perform operation).namedEntries field := by
  by_cases hsame : field = operation.field
  · cases h : operation.written? c with
    | none => exact (perform_of_not_written? h).symm ▸ List.prefix_rfl
    | some v =>
        have hleaves := leaves_perform h
        subst hsame
        cases operation with
        | setImage image => exact absurd rfl hfield
        | openArray field =>
            obtain ⟨items, -, -, -, hentries⟩ := hleaves
            exact hentries ▸ List.prefix_rfl
        | push field item =>
            obtain ⟨items, -, -, hentries⟩ := hleaves
            exact hentries ▸ List.prefix_append ..
        | openObject field | insert field key value =>
            obtain ⟨members, hmembers, -⟩ := Option.map_eq_some_iff.1 h
            exact namedEntries_of_object? hmembers ▸ List.nil_prefix
  · have hentries : (c.perform operation).namedEntries field = c.namedEntries field := by
      rw [namedEntries, namedEntries, get?_perform_of_ne hsame]
    exact hentries ▸ List.prefix_rfl

/-- The labels keep their places, whatever is done. -/
theorem labelKeys_prefix_perform (c : Container) (operation : Operation) :
    c.labelKeys <+: (c.perform operation).labelKeys := by
  by_cases hsame : labelsField = operation.field
  · cases h : operation.written? c with
    | none => exact (perform_of_not_written? h).symm ▸ List.prefix_rfl
    | some v =>
        have hleaves := leaves_perform h
        cases operation with
        | setImage image => cases (by decide : labelsField ≠ imageField) hsame
        | openArray field | push field item =>
            cases hsame
            obtain ⟨items, hitems, -⟩ := Option.map_eq_some_iff.1 h
            exact labelKeys_of_array? hitems ▸ List.nil_prefix
        | openObject field =>
            obtain ⟨members, -, -, -, hkeys⟩ := hleaves
            exact hkeys hsame.symm ▸ List.prefix_rfl
        | insert field key value =>
            obtain ⟨members, -, -, hkeys⟩ := hleaves
            exact hkeys hsame.symm ▸ List.prefix_append ..
  · have hkeys : (c.perform operation).labelKeys = c.labelKeys := by
      rw [labelKeys, labelKeys, get?_perform_of_ne hsame]
    exact hkeys ▸ List.prefix_rfl

/-! ## One operation, and a row of them -/

/-- What one operation does to a container. -/
structure Step (c : Container) (operation : Operation) : Prop where
  /-- It is done where it can be, and leaves what it should. -/
  granted : operation.Admits (c.get? operation.field) →
    c.perform? operation = some (c.perform operation) ∧ operation.Leaves c (c.perform operation)
  /-- It is refused everywhere else, and nothing has changed. -/
  refused : ¬ operation.Admits (c.get? operation.field) →
    c.perform? operation = none ∧ c.perform operation = c
  /-- No other field changes. -/
  others : ∀ other, other ≠ operation.field → (c.perform operation).get? other = c.get? other
  /-- No field moves, and only the field of the operation may come behind. -/
  keys : Keyed.keys (c.perform operation).fields
    = Keyed.keys c.fields ++ if operation.field ∈ Keyed.keys c.fields then [] else [operation.field]
  /-- The container keeps its name. -/
  name : (c.perform operation).name? = c.name?

theorem step_perform (c : Container) (operation : Operation) : Step c operation where
  granted hadmits := by
    obtain ⟨v, hv⟩ := admits_iff.1 hadmits
    exact ⟨perform?_of_written? hv, leaves_perform hv⟩
  refused hadmits := by
    have hnone : operation.written? c = none :=
      Option.eq_none_iff_forall_ne_some.2 fun v hv => hadmits (admits_iff.2 ⟨v, hv⟩)
    exact ⟨perform?_of_not_written? hnone, perform_of_not_written? hnone⟩
  others _ := get?_perform_of_ne
  keys := keys_perform c operation
  name := name?_perform c operation

/-- The container as a row of operations leaves it, each of them done or refused. -/
def performAll (c : Container) (operations : List Operation) : Container := operations.foldl perform c

@[simp] theorem performAll_nil (c : Container) : c.performAll [] = c := rfl

@[simp] theorem performAll_cons (c : Container) (operation : Operation) (operations : List Operation) :
    c.performAll (operation :: operations) = (c.perform operation).performAll operations := rfl

/-- What holds between a container and what one operation makes of it, and goes on from there, holds
between the container and what a row of operations makes of it. -/
theorem performAll_rel {R : Container → Container → Prop} (hrefl : ∀ c, R c c)
    (htrans : ∀ {a b c}, R a b → R b c → R a c) (hstep : ∀ c operation, R c (c.perform operation))
    (c : Container) (operations : List Operation) : R c (c.performAll operations) := by
  induction operations generalizing c with
  | nil => exact hrefl c
  | cons operation operations ih =>
      rw [performAll_cons]
      exact htrans (hstep c operation) (ih (c.perform operation))

theorem keys_performAll (c : Container) (operations : List Operation) :
    ∃ later, Keyed.keys (c.performAll operations).fields = Keyed.keys c.fields ++ later ∧
      ∀ key ∈ later, ∃ operation ∈ operations, operation.field = key := by
  induction operations generalizing c with
  | nil => exact ⟨[], by simp, by simp⟩
  | cons operation operations ih =>
      obtain ⟨later, hkeys, hlater⟩ := ih (c.perform operation)
      rw [← performAll_cons, keys_perform, List.append_assoc] at hkeys
      refine ⟨_, hkeys, fun key hkey => ?_⟩
      rcases List.mem_append.1 hkey with hnew | hrest
      · split at hnew
        · cases hnew
        · exact ⟨operation, List.mem_cons_self .., (List.mem_singleton.1 hnew).symm⟩
      · obtain ⟨other, hother, hfield⟩ := hlater key hrest
        exact ⟨other, List.mem_cons_of_mem _ hother, hfield⟩

/-- What a row of operations does to a container. -/
structure Grown (c : Container) (operations : List Operation) : Prop where
  /-- Each operation does, to the container as those before it have left it, what one operation does. -/
  steps : ∀ before operation after, operations = before ++ operation :: after →
    Step (c.performAll before) operation
  /-- All fields stay in their places, and those behind them are fields of operations. -/
  keys : ∃ later, Keyed.keys (c.performAll operations).fields = Keyed.keys c.fields ++ later ∧
    ∀ key ∈ later, ∃ operation ∈ operations, operation.field = key
  /-- The container keeps its name. -/
  name : (c.performAll operations).name? = c.name?
  /-- Names found in a list keep their places. -/
  entries : ∀ field, field ≠ imageField →
    c.namedEntries field <+: (c.performAll operations).namedEntries field
  /-- Labels keep their places. -/
  labels : c.labelKeys <+: (c.performAll operations).labelKeys

/-- **Containers only grow, and are never renamed**, whatever is done to them. -/
theorem grown_performAll (c : Container) (operations : List Operation) : Grown c operations where
  steps before operation _ _ := step_perform (c.performAll before) operation
  keys := keys_performAll c operations
  name := performAll_rel (R := fun c after => after.name? = c.name?) (fun _ => rfl)
    (fun h h' => h'.trans h) name?_perform c operations
  entries field hfield :=
    performAll_rel (R := fun c after => c.namedEntries field <+: after.namedEntries field)
      (fun _ => List.prefix_rfl) List.IsPrefix.trans
      (fun c operation => namedEntries_prefix_perform c operation hfield) c operations
  labels := performAll_rel (R := fun c after => c.labelKeys <+: after.labelKeys)
    (fun _ => List.prefix_rfl) List.IsPrefix.trans labelKeys_prefix_perform c operations

end TaskRevision.Container
