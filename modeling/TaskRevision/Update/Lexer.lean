import TaskRevision.Text.Parser
import TaskRevision.Update.Token
/-!
# The lexer of update strings

The tokens of an update string, found by parsers that a toolkit provides: the string is read as a list of
segments with commas between them, and each segment as a pair with an equals sign in it, or else as a
bare text or a blank.  A parser may stop and may leave some of the string; both are faults of the lexer.
-/

namespace TaskRevision.Update

open Text (Parser Stop Toolkit trimL)

variable {ε : Type}

/-- Why the lexer finds no tokens. -/
inductive LexerFault (ε : Type) where
  /-- The parser of segments has stopped. -/
  | stopped (stop : Stop ε)
  /-- The parser of segments has not come to the end of the string. -/
  | trailing (remaining : String)
deriving Repr

/-- The words for a fault of the lexer, given those for a stop. -/
def LexerFault.message (describe : Stop ε → String) : LexerFault ε → String
  | .stopped stop => "lexer error: " ++ describe stop
  | .trailing remaining => "unexpected trailing input: \"" ++ remaining ++ "\""

namespace Lexer

/-- Reads the text up to the next comma. -/
def segment (kit : Toolkit ε) : Parser ε (List Char) := kit.takeWhile (· != ',')

/-- Reads all segments, empty ones as well. -/
def segments (kit : Toolkit ε) : Parser ε (List (List Char)) :=
  kit.separatedList (kit.char ',') (segment kit)

/-- Reads the texts before and after the first equals sign. -/
def keyValue (kit : Toolkit ε) : Parser ε (List Char × List Char) :=
  kit.separatedPair (kit.takeTill (· == '=')) (kit.char '=') kit.rest

/-- The token of a segment. -/
def classify (kit : Toolkit ε) (raw : List Char) : Token :=
  match keyValue kit raw with
  | .ok ((key, value), _) => .pair (String.ofList (trimL key)) (String.ofList (trimL value))
  | .error _ =>
    if (trimL raw).isEmpty then .blank else .bare (String.ofList (trimL raw))

/-- The tokens of an update string. -/
def tokens (kit : Toolkit ε) (raw : String) : Except (LexerFault ε) (List Token) :=
  match segments kit raw.toList with
  | .error stop => .error (.stopped stop)
  | .ok (found, remaining) =>
    if remaining.isEmpty then .ok (found.map (classify kit))
    else .error (.trailing (String.ofList remaining))

end Lexer

end TaskRevision.Update
