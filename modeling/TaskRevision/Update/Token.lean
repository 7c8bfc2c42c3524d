import TaskRevision.Text.Blank
import TaskRevision.Text.Cut
/-!
# Segments of update strings

An update string is a row of segments with commas between them.  A segment that holds an equals sign
is a pair, cut at the first one; any other is bare, or blank if nothing but white space stands in it.
Keys, values and bare texts are trimmed.
-/

namespace TaskRevision.Update

/-- What a segment of an update string holds. -/
inductive Token where
  /-- Nothing but white space. -/
  | blank
  /-- The texts before and after the first equals sign. -/
  | pair (key value : String)
  /-- A text without equals sign. -/
  | bare (text : String)
deriving DecidableEq, Repr

/-- The words for a token in messages. -/
def Token.describe : Token → String
  | .blank => "an empty segment"
  | .pair key value => "`" ++ key ++ "=" ++ value ++ "`"
  | .bare text => "`" ++ text ++ "` (missing `=`)"

/-- What the segment holds. -/
def Token.ofSegment (segment : List Char) : Token :=
  match Text.cutFirstL? '=' segment with
  | some (key, value) => .pair (String.ofList (Text.trimL key)) (String.ofList (Text.trimL value))
  | none =>
    if segment.all Text.isBlank then .blank else .bare (String.ofList (Text.trimL segment))

/-- The tokens of an update string, one for each segment. -/
def tokenize (raw : String) : List Token := (Text.splitL ',' raw.toList).map Token.ofSegment

/-- There is one token more than there are commas. -/
theorem length_tokenize (raw : String) : (tokenize raw).length = raw.toList.count ',' + 1 := by
  simp [tokenize, Text.length_splitL]

example : tokenize " a = b=c ,," = [.pair "a" "b=c", .blank, .blank] := by decide

end TaskRevision.Update
