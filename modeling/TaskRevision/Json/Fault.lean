import TaskRevision.Json.Value
import TaskRevision.Text.Location
import TaskRevision.Text.Quoted
/-!
# Faults in a document

A reader that cannot go on says why, and where: it hands back the text that was still unread and how
many bytes of it lie before the fault.  The line and the column are worked out once, from the whole
text, when the fault leaves the reader.

* `Cause` — why a text was refused, with the wording in `Cause.message`;
* `Fault` — a cause and the unread text;
* `Report` — a cause and its place in the document.
-/

namespace TaskRevision.Json

/-! ## Causes -/

/-- What stands in the text where something else was asked for. -/
inductive Found where
  /-- The absent value. -/
  | null
  /-- A truth value. -/
  | bool (b : Bool)
  /-- A number. -/
  | number (n : Number)
  /-- A text. -/
  | string (s : String)
  /-- The start of a list. -/
  | array
  /-- The start of an object. -/
  | object
deriving Repr

/-- The words for what was found. -/
def Found.describe : Found → String
  | .null => "null"
  | .bool b => "boolean `" ++ (if b then "true" else "false") ++ "`"
  | .number (.integer n) => "integer `" ++ String.ofList (integerL n) ++ "`"
  | .number (.real x) => "floating point `" ++ String.ofList (realL x) ++ "`"
  | .string s => "string " ++ Text.quoted s
  | .array => "sequence"
  | .object => "map"

/-- What the value would be described as. -/
def Value.found : Value → Found
  | .null => .null
  | .bool b => .bool b
  | .number n => .number n
  | .string s => .string s
  | .array _ => .array
  | .object _ => .object

/-- Why a text is refused. -/
inductive Cause where
  /-- The text ends where a value, or a part of one, must follow. -/
  | endInValue
  /-- The text ends inside a string. -/
  | endInString
  /-- The text ends inside a list. -/
  | endInArray
  /-- The text ends inside an object. -/
  | endInObject
  /-- No value starts with this character. -/
  | noValue
  /-- A word starts like `null`, `true` or `false` and goes on otherwise. -/
  | noWord
  /-- A numeral is not well formed. -/
  | badNumeral
  /-- A numeral is too large. -/
  | outOfRange
  /-- A control character stands bare inside a string. -/
  | controlCharacter
  /-- A backslash is followed by no known escape. -/
  | badEscape
  /-- One half of a surrogate pair stands without the other. -/
  | loneSurrogate
  /-- The second half of a surrogate pair is missing. -/
  | cutSurrogate
  /-- Something else than a comma or the closing bracket follows an item. -/
  | noCommaInArray
  /-- Something else than a comma or the closing brace follows a member. -/
  | noCommaInObject
  /-- Something else than a colon follows a key. -/
  | noColon
  /-- A key is not a string. -/
  | keyNotString
  /-- A comma is followed by the closing bracket. -/
  | trailingComma
  /-- More text follows the document. -/
  | trailingText
  /-- Lists and objects are nested too deeply. -/
  | tooDeep
  /-- Another kind of value is asked for here. -/
  | mismatch (found : Found) (expected : String)
  /-- An object lacks a member. -/
  | missing (key : String)
  /-- An object has a member twice. -/
  | duplicate (key : String)
  /-- A word is none of those that may stand here. -/
  | unknownWord (word : String) (known : List String)
  /-- A value of the right kind is none of those that are asked for. -/
  | unsuitable (found : Found) (expected : String)
  /-- A list holds more or fewer items than are asked for. -/
  | wrongLength (length : Nat) (expected : String)
deriving Repr

/-- The wording of a cause. -/
def Cause.message : Cause → String
  | .endInValue => "EOF while parsing a value"
  | .endInString => "EOF while parsing a string"
  | .endInArray => "EOF while parsing a list"
  | .endInObject => "EOF while parsing an object"
  | .noValue => "expected value"
  | .noWord => "expected ident"
  | .badNumeral => "invalid number"
  | .outOfRange => "number out of range"
  | .controlCharacter => "control character (\\u0000-\\u001F) found while parsing a string"
  | .badEscape => "invalid escape"
  | .loneSurrogate => "lone leading surrogate in hex escape"
  | .cutSurrogate => "unexpected end of hex escape"
  | .noCommaInArray => "expected `,` or `]`"
  | .noCommaInObject => "expected `,` or `\x7d`"
  | .noColon => "expected `:`"
  | .keyNotString => "key must be a string"
  | .trailingComma => "trailing comma"
  | .trailingText => "trailing characters"
  | .tooDeep => "recursion limit exceeded"
  | .mismatch found expected => "invalid type: " ++ found.describe ++ ", expected " ++ expected
  | .missing key => "missing field `" ++ key ++ "`"
  | .duplicate key => "duplicate field `" ++ key ++ "`"
  | .unknownWord word known =>
    "unknown variant `" ++ word ++ "`, expected one of "
      ++ ", ".intercalate (known.map fun w => "`" ++ w ++ "`")
  | .unsuitable found expected => "invalid value: " ++ found.describe ++ ", expected " ++ expected
  | .wrongLength length expected =>
    "invalid length " ++ String.ofList (naturalL length) ++ ", expected " ++ expected

/-- The text in a value that has to be one. -/
def Value.toText : Value → Except Cause String
  | .string s => .ok s
  | v => .error (.mismatch v.found "a string")

/-! ## Faults -/

/-- A cause, met while reading. -/
structure Fault where
  /-- Why the text is refused. -/
  cause : Cause
  /-- The text not yet read. -/
  rest : List Char
  /-- The bytes of `rest` that stand before the place of the fault. -/
  ahead : Nat := 0
deriving Repr

/-- A fault at the first unread character, or at the end of the text. -/
def Fault.atNext (cause : Cause) : List Char → Fault
  | [] => { cause, rest := [] }
  | c :: s => { cause, rest := c :: s, ahead := 1 }

/-- A function that reads a value off the front of a text and hands back the rest. -/
abbrev Reader (α : Type) := List Char → Except Fault (α × List Char)

/-! ## Reports -/

/-- A cause and its place in a document. -/
structure Report where
  /-- Why the document is refused. -/
  cause : Cause
  /-- Where. -/
  place : Text.Location
deriving Repr

/-- The place of a fault in the document it was met in. -/
def Fault.report (document : List Char) (fault : Fault) : Report where
  cause := fault.cause
  place := Text.locate document
    (Text.byteLength document - Text.byteLength fault.rest + fault.ahead)

/-- The wording of a report. -/
def Report.message (r : Report) : String :=
  r.cause.message ++ " at line " ++ String.ofList (naturalL r.place.line)
    ++ " column " ++ String.ofList (naturalL r.place.column)

end TaskRevision.Json
