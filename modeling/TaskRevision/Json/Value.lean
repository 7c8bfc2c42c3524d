import TaskRevision.Json.Number
import TaskRevision.Keyed
/-!
# Documents

The values of a JSON document.  An object is the list of its members in the order of the text; the
order is data and every operation of this library keeps it.
-/

namespace TaskRevision.Json

/-- A value of a document. -/
inductive Value where
  /-- The absent value. -/
  | null
  /-- A truth value. -/
  | bool (b : Bool)
  /-- A number. -/
  | number (n : Number)
  /-- A text. -/
  | string (s : String)
  /-- A list. -/
  | array (items : List Value)
  /-- A table, its members in order. -/
  | object (members : List (String × Value))
deriving Inhabited

/-- The members of an object, in order. -/
abbrev Members := List (String × Value)

namespace Value

/-- The text, if the value is one. -/
def string? : Value → Option String
  | .string s => some s
  | _ => none

/-- The items, if the value is a list. -/
def array? : Value → Option (List Value)
  | .array items => some items
  | _ => none

/-- The members, if the value is an object. -/
def object? : Value → Option Members
  | .object members => some members
  | _ => none

/-- The value under `key`, if the value is an object that has it. -/
def get? (key : String) : Value → Option Value
  | .object members => members.lookup key
  | _ => none

end Value

end TaskRevision.Json
