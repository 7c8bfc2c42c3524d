import TaskRevision.Json.Fault
/-!
# Words that stand for a choice

A choice among a few things is written as the name of the one that is meant.  An object says the same
if the name is its only key and the member holds nothing.

* `oneOf` — the thing of a given name;
* `Value.toChoice` — the choice that a value makes.
-/

namespace TaskRevision.Json

/-- The one of `all` that has the given name. -/
def oneOf {α : Type} (all : List α) (name : α → String) (word : String) : Except Cause α :=
  match all.find? (name · = word) with
  | some x => .ok x
  | none => .error (.unknownWord word (all.map name))

/-- What is found under a word goes by that word. -/
theorem name_of_oneOf {α : Type} {all : List α} {name : α → String} {word : String} {x : α}
    (h : oneOf all name word = .ok x) : name x = word := by
  unfold oneOf at h
  split at h
  · rename_i found
    cases h
    simpa using List.find?_some found
  · cases h

/-- The choice that a value makes.  The name is looked at before the member under it, which must
satisfy `isNothing`. -/
def Value.toChoice {α : Type} (choose : String → Except Cause α) (isNothing : Value → Bool) :
    Value → Except Cause α
  | .string word => choose word
  | .object [(word, v)] => do
    let choice ← choose word
    if isNothing v then .ok choice else .error (.mismatch v.found "unit")
  | .object _ => .error (.unsuitable .object "map with a single key")
  | v => .error (.mismatch v.found "string or map")

end TaskRevision.Json
