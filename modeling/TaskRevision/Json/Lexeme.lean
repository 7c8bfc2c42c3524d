import TaskRevision.Json.Fault
/-!
# Words and strings of a document

The smallest parts of a document besides numerals: the gaps between tokens, the three words, and
strings with their escapes.

* `skipGaps` — the text behind white space;
* `word` — the rest of `null`, `true` or `false`;
* `stringBody` — a string whose opening quote has been read.
-/

namespace TaskRevision.Json

/-! ## Gaps -/

/-- Whether the character may stand between tokens. -/
def isGap (c : Char) : Bool := c = ' ' || c = '\n' || c = '\t' || c = '\r'

/-- The text from the next token on. -/
def skipGaps (s : List Char) : List Char := s.dropWhile isGap

/-! ## Words -/

/-- Reads the given letters. -/
def word : List Char → Reader Unit
  | [], s => .ok ((), s)
  | _ :: _, [] => .error { cause := .endInValue, rest := [] }
  | letter :: letters, c :: s =>
    if c = letter then word letters s
    else .error { cause := .noWord, rest := c :: s, ahead := 1 }

/-! ## Strings -/

/-- The value of a hexadecimal digit. -/
def hexValue? (c : Char) : Option Nat :=
  if '0' ≤ c && c ≤ '9' then some (c.toNat - '0'.toNat)
  else if 'a' ≤ c && c ≤ 'f' then some (c.toNat - 'a'.toNat + 10)
  else if 'A' ≤ c && c ≤ 'F' then some (c.toNat - 'A'.toNat + 10)
  else none

/-- The value of four hexadecimal digits. -/
def hexUnit? (a b c d : Char) : Option Nat := do
  return ((((← hexValue? a) * 16 + (← hexValue? b)) * 16 + (← hexValue? c)) * 16) + (← hexValue? d)

/-- Whether the unit is the first half of a surrogate pair. -/
def isHighSurrogate (n : Nat) : Bool := 0xD800 ≤ n && n ≤ 0xDBFF

/-- Whether the unit is the second half of a surrogate pair. -/
def isLowSurrogate (n : Nat) : Bool := 0xDC00 ≤ n && n ≤ 0xDFFF

/-- The character that a surrogate pair stands for. -/
def pairedChar (high low : Nat) : Char :=
  Char.ofNat (0x10000 + (high - 0xD800) * 0x400 + (low - 0xDC00))

/-- The character that the letter stands for behind a backslash. -/
def unescape? : Char → Option Char
  | '"' => some '"'
  | '\\' => some '\\'
  | '/' => some '/'
  | 'b' => some '\x08'
  | 'f' => some '\x0c'
  | 'n' => some '\n'
  | 'r' => some '\r'
  | 't' => some '\t'
  | _ => none

/-- The fault of a text that does not start with four hexadecimal digits.  Four bytes are taken for
them, whatever they are. -/
def hexFault (s : List Char) : Fault :=
  let length := Text.byteLength (s.take 4)
  if length < 4 then { cause := .endInString, rest := s, ahead := length }
  else { cause := .badEscape, rest := s, ahead := 4 }

/-- The fault of a text that does not go on with the second half of a surrogate pair. -/
def pairFault : List Char → Fault
  | [] | ['\\'] => { cause := .endInString, rest := [] }
  | '\\' :: 'u' :: s => hexFault s
  | '\\' :: s => { cause := .cutSurrogate, rest := s, ahead := 1 }
  | s => { cause := .cutSurrogate, rest := s, ahead := 1 }

/-- Reads a string whose opening quote has been read; `seen` holds its characters so far, the last
one first. -/
def stringFrom (seen : List Char) : Reader String
  | [] => .error { cause := .endInString, rest := [] }
  | '"' :: s => .ok (String.ofList seen.reverse, s)
  | '\\' :: 'u' :: a :: b :: c :: d :: s =>
    match hexUnit? a b c d with
    | none => .error (hexFault (a :: b :: c :: d :: s))
    | some n =>
      if isLowSurrogate n then .error { cause := .loneSurrogate, rest := s }
      else if isHighSurrogate n then
        match s with
        | '\\' :: 'u' :: e :: f :: g :: h :: s =>
          match hexUnit? e f g h with
          | none => .error (hexFault (e :: f :: g :: h :: s))
          | some m =>
            if isLowSurrogate m then stringFrom (pairedChar n m :: seen) s
            else .error { cause := .loneSurrogate, rest := s }
        | s => .error (pairFault s)
      else stringFrom (Char.ofNat n :: seen) s
  | '\\' :: 'u' :: s => .error (hexFault s)
  | '\\' :: c :: s =>
    match unescape? c with
    | some x => stringFrom (x :: seen) s
    | none => .error { cause := .badEscape, rest := c :: s, ahead := 1 }
  | ['\\'] => .error { cause := .endInString, rest := [] }
  | c :: s =>
    if c.toNat < 0x20 then .error { cause := .controlCharacter, rest := c :: s, ahead := 1 }
    else stringFrom (c :: seen) s

/-- Reads a string whose opening quote has been read. -/
def stringBody : Reader String := stringFrom []

end TaskRevision.Json
