import TaskRevision.Json.Reader
/-!
# Passing over a value

A member that nobody asks for is passed over without building its value.  Its brackets have to match
and its tokens have to be well formed, but nothing is worked out: numerals may be of any size,
surrogates may stand alone, and nesting has no limit, since the open brackets are kept in a list.

* `skimString`, `skimNumeral` — the tokens that are not words;
* `skim` — a whole value.
-/

namespace TaskRevision.Json

/-! ## Tokens -/

/-- Passes over a string whose opening quote has been read. -/
def skimString : Reader Unit
  | [] => .error { cause := .endInString, rest := [] }
  | '"' :: s => .ok ((), s)
  | '\\' :: 'u' :: a :: b :: c :: d :: s =>
    if (hexUnit? a b c d).isSome then skimString s
    else .error (hexFault (a :: b :: c :: d :: s))
  | '\\' :: 'u' :: s => .error (hexFault s)
  | '\\' :: c :: s =>
    if (unescape? c).isSome then skimString s
    else .error { cause := .badEscape, rest := c :: s, ahead := 1 }
  | ['\\'] => .error { cause := .endInString, rest := [] }
  | c :: s =>
    if c.toNat < 0x20 then .error { cause := .controlCharacter, rest := c :: s }
    else skimString s

/-- Passes over digits, of which there is at least one. -/
def skimDigits : Reader Unit := fun s =>
  if startsWithDigit s then .ok ((), s.dropWhile isDigit) else .error (.atNext .badNumeral s)

/-- Passes over an exponent behind its mark. -/
def skimExponent : Reader Unit
  | '+' :: s | '-' :: s => skimDigits s
  | s => skimDigits s

/-- Passes over what may follow the whole part of a numeral. -/
def skimAfterWhole : Reader Unit
  | '.' :: s => do
    let ((), s) ← skimDigits s
    match s with
    | 'e' :: s | 'E' :: s => skimExponent s
    | s => .ok ((), s)
  | 'e' :: s | 'E' :: s => skimExponent s
  | s => .ok ((), s)

/-- Passes over a numeral behind its sign. -/
def skimUnsigned : Reader Unit
  | '0' :: s =>
    if startsWithDigit s then .error (.atNext .badNumeral s) else skimAfterWhole s
  | s => do
    let ((), s) ← skimDigits s
    skimAfterWhole s

/-- Passes over a numeral. -/
def skimNumeral : Reader Unit
  | '-' :: s => skimUnsigned s
  | s => skimUnsigned s

/-! ## Brackets -/

/-- A bracket that is still open. -/
inductive Bracket where
  /-- A list. -/
  | array
  /-- An object. -/
  | object
deriving DecidableEq, Repr

/-- Passes over a word, a numeral or a string, or opens a bracket. -/
def skimAtom : Reader (Option Bracket) := fun s =>
  match skipGaps s with
  | [] => .error { cause := .endInValue, rest := [] }
  | '[' :: s => .ok (some .array, s)
  | '\x7b' :: s => .ok (some .object, s)
  | 'n' :: s => do
    let ((), s) ← word ['u', 'l', 'l'] s
    .ok (none, s)
  | 't' :: s => do
    let ((), s) ← word ['r', 'u', 'e'] s
    .ok (none, s)
  | 'f' :: s => do
    let ((), s) ← word ['a', 'l', 's', 'e'] s
    .ok (none, s)
  | '"' :: s => do
    let ((), s) ← skimString s
    .ok (none, s)
  | c :: s =>
    if c = '-' || isDigit c then do
      let ((), s) ← skimNumeral (c :: s)
      .ok (none, s)
    else .error (.atNext .noValue (c :: s))

/-- Passes over a key and its colon, if the bracket asks for them. -/
def skimKey : Bracket → Reader Unit
  | .array, s => .ok ((), s)
  | .object, s =>
    match skipGaps s with
    | [] => .error { cause := .endInObject, rest := [] }
    | '"' :: s => do
      let ((), s) ← skimString s
      colon s
    | s => .error (.atNext .keyNotString s)

/-- Passes over closing brackets, innermost first, until a value has to follow; hands back the
brackets then still open.  A value may be followed by a comma, an opening bracket may not. -/
def skimClose (afterValue : Bool) : List Bracket → Reader (List Bracket)
  | [], s => .ok ([], s)
  | bracket :: outer, s =>
    match bracket, skipGaps s with
    | .array, [] => .error { cause := .endInArray, rest := [] }
    | .object, [] => .error { cause := .endInObject, rest := [] }
    | .array, ']' :: s => skimClose true outer s
    | .object, '\x7d' :: s => skimClose true outer s
    | bracket, c :: s =>
      if !afterValue then do
        let ((), s) ← skimKey bracket (c :: s)
        .ok (bracket :: outer, s)
      else if c = ',' then do
        let ((), s) ← skimKey bracket s
        .ok (bracket :: outer, s)
      else
        let cause := match bracket with
          | .array => .noCommaInArray
          | .object => .noCommaInObject
        .error (.atNext cause (c :: s))

/-- Passes over values until all brackets are closed. -/
def skimLoop : (rounds : Nat) → List Bracket → Reader Unit
  | 0, _, s => .error { cause := .endInValue, rest := s }
  | rounds + 1, outer, s => do
    let (opened, s) ← skimAtom s
    let (outer, s) ← match opened with
      | some bracket => skimClose false (bracket :: outer) s
      | none => skimClose true outer s
    if outer.isEmpty then .ok ((), s) else skimLoop rounds outer s

/-- Passes over a value. -/
def skim (rounds : Nat) : Reader Unit := skimLoop rounds []

end TaskRevision.Json
