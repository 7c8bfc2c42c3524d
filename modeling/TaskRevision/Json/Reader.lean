import TaskRevision.Json.Lexeme
import TaskRevision.Json.Numeral
/-!
# Reading documents

Readers of lists and objects are built from a reader of what they hold, so that a list of any things
and an object with any use of its members share one loop each.  Values nest at most `maxNesting`
levels deep: the reader of a value is a recursion on the levels that are left.

Loops are bounded by a number of rounds.  Each round reads at least one character, so the length of
the document is enough for any of them.

* `arrayBody` — the items of a list whose bracket has been read;
* `objectBody` — the members of an object whose brace has been read, folded into a state;
* `value` — any value;
* `decode` — a whole document by a given reader.
-/

namespace TaskRevision.Json

/-! ## Lists -/

/-- Reads items up to the closing bracket; an item comes first. -/
def itemLoop {α : Type} (item : Reader α) : (rounds : Nat) → Reader (List α)
  | 0, s => .error { cause := .endInArray, rest := s }
  | rounds + 1, s => do
    let (x, s) ← item s
    match skipGaps s with
    | [] => .error { cause := .endInArray, rest := [] }
    | ']' :: s => .ok ([x], s)
    | ',' :: s =>
      match skipGaps s with
      | [] => .error { cause := .endInValue, rest := [] }
      | ']' :: s => .error (.atNext .trailingComma (']' :: s))
      | s => do
        let (xs, s) ← itemLoop item rounds s
        .ok (x :: xs, s)
    | s => .error (.atNext .noCommaInArray s)

/-- Reads the items of a list whose bracket has been read. -/
def arrayBody {α : Type} (rounds : Nat) (item : Reader α) : Reader (List α) := fun s =>
  match skipGaps s with
  | [] => .error { cause := .endInArray, rest := [] }
  | ']' :: s => .ok ([], s)
  | s => itemLoop item rounds s

/-! ## Objects -/

/-- Reads the colon behind a key. -/
def colon : Reader Unit := fun s =>
  match skipGaps s with
  | [] => .error { cause := .endInObject, rest := [] }
  | ':' :: s => .ok ((), s)
  | s => .error (.atNext .noColon s)

/-- Reads members up to the closing brace; a key whose quote has been read comes first.  The
function `member` reads what follows a key and takes it into the state. -/
def memberLoop {σ : Type} (member : σ → String → Reader σ) :
    (rounds : Nat) → σ → Reader σ
  | 0, _, s => .error { cause := .endInObject, rest := s }
  | rounds + 1, state, s => do
    let (key, s) ← stringBody s
    let (state, s) ← member state key s
    match skipGaps s with
    | [] => .error { cause := .endInObject, rest := [] }
    | '\x7d' :: s => .ok (state, s)
    | ',' :: s =>
      match skipGaps s with
      | [] => .error { cause := .endInValue, rest := [] }
      | '"' :: s => memberLoop member rounds state s
      | '\x7d' :: s => .error (.atNext .trailingComma ('\x7d' :: s))
      | s => .error (.atNext .keyNotString s)
    | s => .error (.atNext .noCommaInObject s)

/-- Reads the members of an object whose brace has been read, from the state `init`. -/
def objectBody {σ : Type} (rounds : Nat) (init : σ) (member : σ → String → Reader σ) :
    Reader σ := fun s =>
  match skipGaps s with
  | [] => .error { cause := .endInObject, rest := [] }
  | '\x7d' :: s => .ok (init, s)
  | '"' :: s => memberLoop member rounds init s
  | s => .error (.atNext .keyNotString s)

/-- Reads a colon and a value, and puts the value under the key. -/
def keep (item : Reader Value) (members : Members) (key : String) : Reader Members := fun s => do
  let ((), s) ← colon s
  let (v, s) ← item s
  .ok (Keyed.insert key v members, s)

/-! ## Values -/

/-- How deep lists and objects may nest. -/
def maxNesting : Nat := 127

/-- Reads a value that is no list and no object, and leaves these two, behind their bracket, to the
given readers. -/
def valueWith (array object : Reader Value) : Reader Value := fun s =>
  match skipGaps s with
  | [] => .error { cause := .endInValue, rest := [] }
  | 'n' :: s => do
    let ((), s) ← word ['u', 'l', 'l'] s
    .ok (.null, s)
  | 't' :: s => do
    let ((), s) ← word ['r', 'u', 'e'] s
    .ok (.bool true, s)
  | 'f' :: s => do
    let ((), s) ← word ['a', 'l', 's', 'e'] s
    .ok (.bool false, s)
  | '"' :: s => do
    let (text, s) ← stringBody s
    .ok (.string text, s)
  | '[' :: s => array s
  | '\x7b' :: s => object s
  | c :: s =>
    if c = '-' || isDigit c then do
      let (n, s) ← numeral (c :: s)
      .ok (.number n, s)
    else .error (.atNext .noValue (c :: s))

/-- Refuses a bracket that has just been read. -/
def tooDeep {α : Type} : Reader α := fun s => .error { cause := .tooDeep, rest := s }

/-- Reads any value that nests at most `levels` deep. -/
def value (rounds : Nat) : (levels : Nat) → Reader Value
  | 0 => valueWith tooDeep tooDeep
  | levels + 1 =>
    valueWith
      (fun s => do
        let (items, s) ← arrayBody rounds (value rounds levels) s
        .ok (.array items, s))
      (fun s => do
        let (members, s) ← objectBody rounds [] (keep (value rounds levels)) s
        .ok (.object members, s))

/-! ## Documents -/

/-- Reads a whole text.  The reader is told how many rounds its loops may take. -/
def decode {α : Type} (read : (rounds : Nat) → Reader α) (document : String) :
    Except Report α :=
  let text := document.toList
  match read text.length text with
  | .error fault => .error (fault.report text)
  | .ok (x, s) =>
    match skipGaps s with
    | [] => .ok x
    | s => .error ((Fault.atNext .trailingText s).report text)

/-- Reads a document as a value. -/
def parse (document : String) : Except Report Value :=
  decode (fun rounds => value rounds maxNesting) document

end TaskRevision.Json
