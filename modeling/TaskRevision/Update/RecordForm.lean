import TaskRevision.Json.Choice
import TaskRevision.Update.Record
/-!
# Records in documents

A record is written as an object whose member `kind` says which record it is.  Reading one does not
mind the order of the members nor members that it does not know; of several things that are wrong it
reports the first type mismatch in the order of the text, or else the first member that is missing.
A list is read as well: it starts with the kind, and the fields follow in the order of
`Record.fields`.

* `Record.toJson` — the object of a record;
* `Record.ofJson` — the record of an object or a list, or why there is none.
-/

namespace TaskRevision.Update

open Json (Value Members Cause)

/-! ## Modes -/

/-- The mode that the value names.  Under a name that is a key stands null or an empty object. -/
def Mode.ofJson (v : Value) : Except Cause Mode :=
  v.toChoice (Json.oneOf Mode.all Mode.name) fun
    | .null | .object [] => true
    | _ => false

namespace Record

/-! ## Kinds and fields -/

/-- The word for a kind in the documents of its records. -/
def kindWord : Kind → String
  | .image => "image"
  | .environment => "env"
  | .dockerLabel => "label"
  | .secret => "secret"

/-- The words for what is asked for where the fields of a record must stand. -/
def expected : Kind → String
  | .image => "struct ImageEdit"
  | .environment => "struct EnvEdit"
  | .dockerLabel => "struct LabelEdit"
  | .secret => "struct SecretEdit"

/-- The fields of a record beside its kind, in order. -/
def fields : Kind → List String
  | .image => ["container", "mode", "value"]
  | .environment => ["container", "name", "value"]
  | .dockerLabel => ["container", "key", "value"]
  | .secret => ["container", "name", "value_from"]

/-- The kind of record that the value names. -/
def kindOf : Value → Except Cause Kind
  | .string word => Json.oneOf Kind.all kindWord word
  | v => .error (.mismatch v.found "variant identifier")

/-- The record of the given kind with the given fields, which are taken in order; a field that is
not there has the cause `absent`. -/
def ofFields (kind : Kind) (absent : String → Cause) (members : Members) : Except Cause Record := do
  let field (key : String) : Except Cause Value :=
    match members.lookup key with
    | some v => .ok v
    | none => .error (absent key)
  let text (key : String) : Except Cause String := do (← field key).toText
  match kind with
  | .image => do
    .ok (.image (← text "container") (← Mode.ofJson (← field "mode")) (← text "value"))
  | .environment => do
    .ok (.environment (← text "container") (← text "name") (← text "value"))
  | .dockerLabel => do
    .ok (.label (← text "container") (← text "key") (← text "value"))
  | .secret => do
    .ok (.secret (← text "container") (← text "name") (← text "value_from"))

/-! ## Objects -/

/-- The object of a record. -/
def toJson (record : Record) : Value :=
  .object (("kind", .string (kindWord record.kind))
    :: ("container", .string record.container)
    :: match record with
      | .image _ mode value => [("mode", .string mode.name), ("value", .string value)]
      | .environment _ name value => [("name", .string name), ("value", .string value)]
      | .label _ key value => [("key", .string key), ("value", .string value)]
      | .secret _ name source => [("name", .string name), ("value_from", .string source)])

/-- Checks a member of a record: `mode` has to name a mode where it is a field of the kind, the
other fields have to be texts, and any other member may be anything. -/
def checkMember (kind : Kind) (key : String) (v : Value) : Except Cause Unit :=
  if (fields kind).contains key then
    if key = "mode" then do
      let _ ← Mode.ofJson v
      .ok ()
    else do
      let _ ← v.toText
      .ok ()
  else .ok ()

/-- Checks the members in order. -/
def checkMembers (kind : Kind) : Members → Except Cause Unit
  | [] => .ok ()
  | (key, v) :: members => do
    checkMember kind key v
    checkMembers kind members

/-- The record of the given kind with the members of an object. -/
def ofMembers (kind : Kind) (members : Members) : Except Cause Record := do
  checkMembers kind members
  ofFields kind .missing members

/-! ## Lists -/

/-- The record of the given kind with the items of a list as its fields.  Items that are too many
are met after the fields. -/
def ofItems (kind : Kind) (items : List Value) : Except Cause Record := do
  let short := .wrongLength items.length (expected kind ++ " with 3 elements")
  let record ← ofFields kind (fun _ => short) ((fields kind).zip items)
  if items.length ≤ (fields kind).length then .ok record
  else .error (.wrongLength items.length "3 elements in sequence")

/-! ## Both forms -/

/-- The record of a value. -/
def ofJson : Value → Except Cause Record
  | .object members =>
    match members.lookup "kind" with
    | some v => do ofMembers (← kindOf v) members
    | none => .error (.missing "kind")
  | .array (v :: items) => do ofItems (← kindOf v) items
  | .array [] => .error (.missing "kind")
  | v => .error (.mismatch v.found "internally tagged enum EditRecord")

/-- What is written is read back. -/
theorem ofJson_toJson (record : Record) : ofJson record.toJson = .ok record := by
  cases record with
  | image container mode value => cases mode <;> rfl
  | environment container name value => rfl
  | label container key value => rfl
  | secret container name source => rfl

example : ofJson (.array [.string "label", .string "web", .string "team", .string "core"])
    = .ok (.label "web" "team" "core") := by
  rfl

end Record

end TaskRevision.Update
