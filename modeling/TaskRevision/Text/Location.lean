/-!
# Places in a text

A place is told by its line and by the number of bytes that stand before it on that line.  Lines end
at a line feed; bytes are those of the UTF-8 form.
-/

namespace TaskRevision.Text

/-- The number of bytes in the UTF-8 form of the text. -/
def byteLength : List Char → Nat
  | [] => 0
  | c :: s => c.utf8Size + byteLength s

/-- A place in a text. -/
structure Location where
  /-- The line, counted from one. -/
  line : Nat := 1
  /-- The bytes before the place on its line. -/
  column : Nat := 0
deriving DecidableEq, Repr

/-- The place `offset` bytes further on in `text`, from the place where `text` starts. -/
def Location.advance (here : Location) : List Char → (offset : Nat) → Location
  | [], _ => here
  | c :: text, offset =>
    if offset < c.utf8Size then { here with column := here.column + offset }
    else if c = '\n' then advance ⟨here.line + 1, 0⟩ text (offset - 1)
    else advance { here with column := here.column + c.utf8Size } text (offset - c.utf8Size)

/-- The place `offset` bytes into the text. -/
def locate (text : List Char) (offset : Nat) : Location := Location.advance {} text offset

@[simp] theorem byteLength_append (s t : List Char) :
    byteLength (s ++ t) = byteLength s + byteLength t := by
  induction s with
  | nil => simp [byteLength]
  | cons c s ih => simp only [List.cons_append, byteLength, ih]; omega

example : locate "a\né".toList 3 = ⟨2, 1⟩ := by decide

end TaskRevision.Text
