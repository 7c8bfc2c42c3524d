import TaskRevision.Json.Expect
import TaskRevision.Json.Skim
import TaskRevision.Text.Blank
import TaskRevision.Update.Kind
/-!
# The update strings of one run

A run takes one update string of each kind; one that is not given is empty.  In documents the
strings stand as the members of an object, or as the first items of a list in the order of
`Strings.fields`.  A member may stand only once; members of other names are passed over.

* `Strings.reader` — reads the strings off a text;
* `Strings.ofJson` — takes them from a value that has been read;
* `Strings.inApplyOrder` — the strings as a run takes them.
-/

namespace TaskRevision.Update

open Json (Value Cause Reader Fault skipGaps)

/-- The update strings of one run. -/
structure Strings where
  /-- Changes of images. -/
  image : String := ""
  /-- Changes of environment variables. -/
  environment : String := ""
  /-- Changes of docker labels. -/
  dockerLabels : String := ""
  /-- Changes of secrets. -/
  secrets : String := ""
deriving DecidableEq, Repr, Inhabited

namespace Strings

/-! ## The strings by kind -/

/-- The update string of the given kind. -/
def get (strings : Strings) : Kind → String
  | .image => strings.image
  | .environment => strings.environment
  | .dockerLabel => strings.dockerLabels
  | .secret => strings.secrets

/-- The update strings with `raw` as the one of the given kind. -/
def set (strings : Strings) (kind : Kind) (raw : String) : Strings :=
  match kind with
  | .image => { strings with image := raw }
  | .environment => { strings with environment := raw }
  | .dockerLabel => { strings with dockerLabels := raw }
  | .secret => { strings with secrets := raw }

@[simp] theorem get_set_self (strings : Strings) (kind : Kind) (raw : String) :
    (strings.set kind raw).get kind = raw := by
  cases kind <;> rfl

theorem get_set_of_ne (strings : Strings) {kind other : Kind} (raw : String) (h : other ≠ kind) :
    (strings.set kind raw).get other = strings.get other := by
  cases kind <;> cases other <;> simp_all [get, set]

/-- The update strings with their kinds, in the order in which a run applies them. -/
def inApplyOrder (strings : Strings) : List (Kind × String) :=
  Kind.applyOrder.map fun kind => (kind, strings.get kind)

/-- Whether all update strings are blank. -/
def isEmpty (strings : Strings) : Bool :=
  strings.inApplyOrder.all fun entry => Text.isBlankText entry.2

/-! ## The form in documents -/

/-- The words for what is asked for where update strings must stand. -/
def expected : String := "struct DirectiveSet"

/-- The name under which the update string of a kind stands. -/
def field : Kind → String
  | .image => "image"
  | .environment => "environment"
  | .dockerLabel => "dockerLabels"
  | .secret => "secrets"

/-- The kind whose update string stands under the given name. -/
def kindOf? (key : String) : Option Kind := Kind.all.find? (field · = key)

/-- The update strings of a list that has them in the order of `Kind.all`. -/
def ofList (raws : List String) : Strings :=
  (Kind.all.zip raws).foldl (fun strings entry => strings.set entry.1 entry.2) {}

/-- The update strings as an object. -/
def toJson (strings : Strings) : Value :=
  .object (Kind.all.map fun kind => (field kind, .string (strings.get kind)))

/-! ### Taking them from a value -/

/-- Takes the members of an object into the update strings. -/
def ofMembers (strings : Strings) : Json.Members → Except Cause Strings
  | [] => .ok strings
  | (key, v) :: members =>
    match kindOf? key with
    | some kind => do
      let raw ← v.toText
      ofMembers (strings.set kind raw) members
    | none => ofMembers strings members

/-- The update strings that a value holds. -/
def ofJson : Value → Except Cause Strings
  | .object members => ofMembers {} members
  | .array items => do
    let raws ← (items.take Kind.all.length).mapM Value.toText
    if items.length ≤ Kind.all.length then .ok (ofList raws)
    else .error (.wrongLength items.length "fewer elements in array")
  | v => .error (.mismatch v.found expected)

theorem ofJson_toJson (strings : Strings) : ofJson strings.toJson = .ok strings := rfl

/-! ### Reading them off a text -/

/-- The members read so far. -/
abbrev Seen := List (Kind × String)

/-- Reads what follows a key into the members read so far. -/
def readMember (rounds : Nat) (seen : Seen) (key : String) : Reader Seen := fun s =>
  match kindOf? key with
  | some kind => do
    let (raw, s) ← Json.known (seen.lookup kind) key Json.text s
    .ok (seen ++ [(kind, raw)], s)
  | none => do
    let ((), s) ← Json.colon s
    let ((), s) ← Json.skim rounds s
    .ok (seen, s)

/-- Reads the closing bracket behind the last string that a list may hold. -/
def readEnd : Reader Unit := fun s =>
  match skipGaps s with
  | [] => .error { cause := .endInArray, rest := [] }
  | ']' :: s => .ok ((), s)
  | ',' :: s =>
    match skipGaps s with
    | ']' :: s => .error (.atNext .trailingComma (']' :: s))
    | s => .error (.atNext .trailingText s)
  | s => .error (.atNext .trailingText s)

/-- Reads a string and at most `more` further ones, up to the closing bracket. -/
def readItems : (more : Nat) → Reader (List String)
  | 0, s => do
    let (raw, s) ← Json.text s
    let ((), s) ← readEnd s
    .ok ([raw], s)
  | more + 1, s => do
    let (raw, s) ← Json.text s
    match skipGaps s with
    | [] => .error { cause := .endInArray, rest := [] }
    | ']' :: s => .ok ([raw], s)
    | ',' :: s =>
      match skipGaps s with
      | [] => .error { cause := .endInValue, rest := [] }
      | ']' :: s => .error (.atNext .trailingComma (']' :: s))
      | s => do
        let (raws, s) ← readItems more s
        .ok (raw :: raws, s)
    | s => .error (.atNext .noCommaInArray s)

/-- Reads the update strings of one run. -/
def reader (rounds : Nat) : Reader Strings := fun s =>
  match skipGaps s with
  | '\x7b' :: s => do
    let (seen, s) ← Json.objectBody rounds [] (readMember rounds) s
    .ok (seen.foldl (fun strings entry => strings.set entry.1 entry.2) {}, s)
  | '[' :: s =>
    match skipGaps s with
    | [] => .error { cause := .endInArray, rest := [] }
    | ']' :: s => .ok ({}, s)
    | s => do
      let (raws, s) ← readItems (Kind.all.length - 1) s
      .ok (ofList raws, s)
  | s => .error (Json.mismatch expected s)

/-- Reads a document that holds the update strings of one run. -/
def parse (document : String) : Except Json.Report Strings := Json.decode reader document

end Strings

end TaskRevision.Update
