/-!
# Cutting text at a separator

Three ways to cut a text, each a structural recursion on its characters: at every separator, at the
first, at the last; and the test for a word somewhere inside.
-/

namespace TaskRevision.Text

/-- The pieces between separators, in order: one more than there are separators. -/
def splitL (sep : Char) : List Char → List (List Char)
  | [] => [[]]
  | c :: s =>
    if c = sep then [] :: splitL sep s
    else match splitL sep s with
      | [] => [[c]]
      | piece :: pieces => (c :: piece) :: pieces

/-- The text before and after the first separator, if there is one. -/
def cutFirstL? (sep : Char) : List Char → Option (List Char × List Char)
  | [] => none
  | c :: s =>
    if c = sep then some ([], s)
    else (cutFirstL? sep s).map fun cut => (c :: cut.1, cut.2)

/-- The text before and after the last separator, if there is one. -/
def cutLastL? (sep : Char) : List Char → Option (List Char × List Char)
  | [] => none
  | c :: s =>
    match cutLastL? sep s with
    | some cut => some (c :: cut.1, cut.2)
    | none => if c = sep then some ([], s) else none

/-- Whether the word stands somewhere in the text. -/
def occursL (word : List Char) : List Char → Bool
  | [] => word.isEmpty
  | c :: s => word.isPrefixOf (c :: s) || occursL word s

theorem splitL_ne_nil (sep : Char) (s : List Char) : splitL sep s ≠ [] := by
  cases s with
  | nil => simp [splitL]
  | cons c s =>
    unfold splitL
    split
    · simp
    · split <;> simp

/-- There is one piece more than there are separators. -/
theorem length_splitL (sep : Char) (s : List Char) :
    (splitL sep s).length = s.count sep + 1 := by
  induction s with
  | nil => rfl
  | cons c s ih =>
    unfold splitL
    split
    · next h => simp [h, ih]
    · next h =>
      split
      · next hnil => exact absurd hnil (splitL_ne_nil sep s)
      · next piece pieces hs => simpa [hs, List.count_cons, h] using ih

example : splitL ',' "a,,b".toList = ["a".toList, [], "b".toList] := by decide

example : cutLastL? ':' "host:5000/app".toList = some ("host".toList, "5000/app".toList) := by decide

end TaskRevision.Text
