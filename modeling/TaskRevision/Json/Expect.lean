import TaskRevision.Json.Reader
/-!
# Asking for a kind of value

Readers that accept one kind of value only.  A value of another kind is refused with a description
of what was found: a list or an object by its bracket, anything else after it has been read, so that
a fault inside it is met first.

* `mismatch` — the fault of a text that holds another kind of value;
* `list`, `table`, `text` — lists, objects and strings;
* `known` — a member that may stand only once.
-/

namespace TaskRevision.Json

/-- Reads the value that comes next, as far as that is needed to describe it. -/
def found : Reader Found := fun s =>
  match skipGaps s with
  | '[' :: s => .ok (.array, '[' :: s)
  | '\x7b' :: s => .ok (.object, '\x7b' :: s)
  | s => do
    let (v, s) ← value 0 0 s
    .ok (v.found, s)

/-- The fault of a text that holds something else than `expected`. -/
def mismatch (expected : String) (s : List Char) : Fault :=
  match found s with
  | .ok (found, s) => { cause := .mismatch found expected, rest := s }
  | .error fault => fault

/-- Reads a list of items. -/
def list {α : Type} (rounds : Nat) (item : Reader α) : Reader (List α) := fun s =>
  match skipGaps s with
  | '[' :: s => arrayBody rounds item s
  | s => .error (mismatch "a sequence" s)

/-- Reads an object, and refuses anything else as not `expected`. -/
def table {σ : Type} (expected : String) (rounds : Nat) (init : σ)
    (member : σ → String → Reader σ) : Reader σ := fun s =>
  match skipGaps s with
  | '\x7b' :: s => objectBody rounds init member s
  | s => .error (mismatch expected s)

/-- Reads a string. -/
def text : Reader String := fun s =>
  match skipGaps s with
  | '"' :: s => stringBody s
  | s => .error (mismatch "a string" s)

/-- The text behind a key that may not stand here; an object that ends there is left first. -/
def afterRefusedKey (s : List Char) : List Char :=
  match skipGaps s with
  | '\x7d' :: s => s
  | s => s

/-- Reads what follows a key that may stand only once; `seen` is its value if it has stood. -/
def known {α : Type} (seen : Option α) (key : String) (item : Reader α) : Reader α := fun s =>
  match seen with
  | some _ => .error { cause := .duplicate key, rest := afterRefusedKey s }
  | none => do
    let ((), s) ← colon s
    item s

end TaskRevision.Json
