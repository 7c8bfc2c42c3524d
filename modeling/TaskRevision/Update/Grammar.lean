import TaskRevision.Update.Record
import TaskRevision.Update.Token
/-!
# The grammar of update strings

A record opens with an anchor `container=<name>`, followed by one or two pairs as its kind asks for:
a mode and a value for images, `name` and `value` for environment variables, a label and its value,
`name` and `valueFrom` for secrets.  Blank segments may stand between records, not inside one.

* `step` — what a token adds, given the stage that the record at hand has reached;
* `scan` — the records of a row of tokens;
* `read` — the records of an update string, or the reason why there are none.
-/

namespace TaskRevision.Update

/-! ## Reasons -/

/-- The key that opens a record. -/
def anchorKey : String := "container"

/-- Why an update string is refused. -/
inductive Reason where
  /-- The update string for images speaks of no container at all. -/
  | noContainer
  /-- An anchor names no container. -/
  | emptyAnchor
  /-- Something else stands where a record must open. -/
  | expectedAnchor (got : Token)
  /-- Something else than a pair stands inside a record. -/
  | expectedField (container : String) (got : Token)
  /-- The string ends inside a record. -/
  | incomplete (container : String)
  /-- A pair has another key than the record asks for. -/
  | expectedKey (expected got : String)
  /-- A pair does not name a mode. -/
  | unknownMode (word : String)
  /-- A label has an empty key. -/
  | emptyLabelKey
  /-- A record opens where a label must stand. -/
  | expectedLabel (container : String)
  /-- A second pair stands in a record of one pair. -/
  | unexpectedSecond (key : String)
deriving DecidableEq, Repr

/-- The wording of a reason. -/
def Reason.message : Reason → String
  | .noContainer => "the container parameter is required"
  | .emptyAnchor => "empty `" ++ anchorKey ++ "=` value"
  | .expectedAnchor got => "expected `" ++ anchorKey ++ "=<name>`, got " ++ got.describe
  | .expectedField container got =>
    "expected a `key=value` field for container `" ++ container ++ "`, got " ++ got.describe
  | .incomplete container => "directive for container `" ++ container ++ "` is incomplete"
  | .expectedKey expected got => "expected `" ++ expected ++ "=`, got `" ++ got ++ "=`"
  | .unknownMode word => Mode.complaint word
  | .emptyLabelKey => "empty docker label key"
  | .expectedLabel container =>
    "expected a label for container `" ++ container ++ "`, got another `" ++ anchorKey ++ "=`"
  | .unexpectedSecond key => "unexpected second field `" ++ key ++ "`"

/-! ## Stages -/

/-- How far the record at hand has been read. -/
inductive Stage where
  /-- No record is open. -/
  | between
  /-- The anchor has been read. -/
  | anchored (container : String)
  /-- The anchor and the first of two pairs have been read. -/
  | named (container name : String)
deriving DecidableEq, Repr

/-- The stage behind the first pair of a record, and the record if it is complete. -/
def Kind.first (kind : Kind) (container key value : String) :
    Except Reason (Stage × Option Record) :=
  match kind with
  | .image =>
    match Mode.ofName? key with
    | some mode => .ok (.between, some (.image container mode value))
    | none => .error (.unknownMode key)
  | .environment | .secret =>
    if key = "name" then .ok (.named container value, none)
    else .error (.expectedKey "name" key)
  | .dockerLabel =>
    if key = "" then .error .emptyLabelKey
    else if key = anchorKey then .error (.expectedLabel container)
    else .ok (.between, some (.label container key value))

/-- The record that the second pair completes. -/
def Kind.second (kind : Kind) (container name key value : String) : Except Reason Record :=
  match kind with
  | .environment =>
    if key = "value" then .ok (.environment container name value)
    else .error (.expectedKey "value" key)
  | .secret =>
    if key = "valueFrom" then .ok (.secret container name value)
    else .error (.expectedKey "valueFrom" key)
  -- Out of reach: no first pair of these kinds leaves a record open.
  | .image | .dockerLabel => .error (.unexpectedSecond key)

/-- The stage behind a token, and the record that it completes. -/
def step (kind : Kind) : Stage → Token → Except Reason (Stage × Option Record)
  | .between, .blank => .ok (.between, none)
  | .between, .pair key value =>
    if key = anchorKey then
      if value = "" then .error .emptyAnchor else .ok (.anchored value, none)
    else .error (.expectedAnchor (.pair key value))
  | .between, .bare text => .error (.expectedAnchor (.bare text))
  | .anchored container, .pair key value => kind.first container key value
  | .anchored container, token => .error (.expectedField container token)
  | .named container name, .pair key value => do
    let record ← kind.second container name key value
    .ok (.between, some record)
  | .named container _, token => .error (.expectedField container token)

/-! ## Records of an update string -/

/-- The records that the tokens complete, from the given stage on. -/
def scan (kind : Kind) : Stage → List Token → Except Reason (List Record)
  | .between, [] => .ok []
  | .anchored container, [] => .error (.incomplete container)
  | .named container _, [] => .error (.incomplete container)
  | stage, token :: tokens => do
    let (stage, completed) ← step kind stage token
    let records ← scan kind stage tokens
    .ok (completed.toList ++ records)

/-- Whether the text holds an anchor as it is usually written. -/
def mentionsAnchor (raw : String) : Bool :=
  Text.occursL (anchorKey.toList ++ ['=']) raw.toList

/-- The records of an update string.  One for images that holds anything must mention an anchor. -/
def read (kind : Kind) (raw : String) : Except Reason (List Record) :=
  if kind = .image && !Text.isBlankText raw && !mentionsAnchor raw then .error .noContainer
  else scan kind .between (tokenize raw)

example : read .environment "container=web,name=A,value=1=2," = .ok [.environment "web" "A" "1=2"] := by
  rfl

example : read .dockerLabel "container=web,,team=core"
    = .error (.expectedField "web" .blank) := by rfl

end TaskRevision.Update
