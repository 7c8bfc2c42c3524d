/-!
# Parsers put together from parsers

A parser takes what it recognises off the start of a text and hands back the rest, or it stops.  Larger
parsers are put together from a handful of smaller ones.  Who provides these does not matter, as long as
they keep to the laws of their toolkit.

* `Parser`, `Stop` — what becomes of a text;
* `Toolkit` — the smaller parsers, and the ways of putting parsers together;
* `Further`, `Toolkit.Lawful` — what they do, in so far as other modules rely on it;
* `Toolkit.plain` — a toolkit written out, and `lawful_plain`, that it keeps to the laws.
-/

namespace TaskRevision.Text

/-! ## Toolkits -/

/-- Why a parser stops. -/
inductive Stop (ε : Type) where
  /-- The text ends too early.  So many characters are missing, if that is known. -/
  | incomplete (needed : Option Nat)
  /-- The text has another form.  Where there is a choice something else may be tried. -/
  | mismatch (fault : ε)
  /-- The text has another form, and nothing else may be tried. -/
  | failure (fault : ε)
deriving Repr

/-- Takes a value off the start of a text and hands back the rest. -/
abbrev Parser (ε α : Type) := List Char → Except (Stop ε) (α × List Char)

/-- Small parsers, and ways of putting parsers together. -/
structure Toolkit (ε : Type) where
  /-- The longest start of the text in which all characters fit. -/
  takeWhile : (Char → Bool) → Parser ε (List Char)
  /-- The text before the first character that fits. -/
  takeTill : (Char → Bool) → Parser ε (List Char)
  /-- One given character. -/
  char : Char → Parser ε Char
  /-- All that is left. -/
  rest : Parser ε (List Char)
  /-- Two values with a separator between them. -/
  separatedPair {α β γ : Type} : Parser ε α → Parser ε β → Parser ε γ → Parser ε (α × γ)
  /-- Items with separators between them, at least one item. -/
  separatedList {α β : Type} : Parser ε α → Parser ε β → Parser ε (List β)

/-! ## Laws -/

section Laws

variable {ε α β : Type}

/-- The items that a list has behind an item, and the text that it leaves.  The list ends where there is
no separator, or no item behind the separator, which is then left as well.  Nothing is said of separators
that take nothing off the text. -/
inductive Further (separator : Parser ε α) (item : Parser ε β) :
    List Char → List β → List Char → Prop
  /-- No separator follows. -/
  | noSeparator {s : List Char} {fault : ε} : separator s = .error (.mismatch fault) →
      Further separator item s [] s
  /-- A separator follows, but no item. -/
  | noItem {s behind : List Char} {mark : α} {fault : ε} : separator s = .ok (mark, behind) →
      item behind = .error (.mismatch fault) → Further separator item s [] s
  /-- A separator follows, and an item behind it. -/
  | next {s behind left rest : List Char} {mark : α} {found : β} {items : List β} :
      separator s = .ok (mark, behind) → behind.length < s.length →
      item behind = .ok (found, left) → left.length ≤ behind.length →
      Further separator item left items rest → Further separator item s (found :: items) rest

/-- What the parsers of a toolkit do. -/
structure Toolkit.Lawful (kit : Toolkit ε) : Prop where
  /-- Characters that fit are taken, be there any or not. -/
  takeWhile : ∀ (fits : Char → Bool) (s : List Char),
    kit.takeWhile fits s = .ok (s.takeWhile fits, s.dropWhile fits)
  /-- Characters that do not fit are taken, be there any or not. -/
  takeTill : ∀ (fits : Char → Bool) (s : List Char),
    kit.takeTill fits s = .ok (s.takeWhile (!fits ·), s.dropWhile (!fits ·))
  /-- The given character is taken, -/
  char : ∀ (c : Char) (s : List Char), kit.char c (c :: s) = .ok (c, s)
  /-- and no other. -/
  charMismatch : ∀ (c : Char) (s : List Char), s.head? ≠ some c →
    ∃ fault, kit.char c s = .error (.mismatch fault)
  /-- The text is taken to its end. -/
  rest : ∀ s : List Char, kit.rest s = .ok (s, [])
  /-- The three parsers are run behind one another, and the separator is dropped. -/
  separatedPair : ∀ {α β γ : Type} (first : Parser ε α) (separator : Parser ε β)
    (second : Parser ε γ) (s : List Char),
    kit.separatedPair first separator second s = do
      let (a, s) ← first s
      let (_, s) ← separator s
      let (c, s) ← second s
      .ok ((a, c), s)
  /-- A list that starts with an item goes on for as long as items follow. -/
  separatedList : ∀ {α β : Type} {separator : Parser ε α} {item : Parser ε β}
    {s left rest : List Char} {found : β} {items : List β},
    item s = .ok (found, left) → Further separator item left items rest →
    kit.separatedList separator item s = .ok (found :: items, rest)

end Laws

/-! ## A toolkit written out -/

section Plain

variable {α β : Type}

/-- Reads the items that follow an item.  A round that takes nothing off the text is a mismatch, since
there would be no end to such rounds. -/
def furtherItems (separator : Parser (List Char) α) (item : Parser (List Char) β) (s : List Char) :
    Except (Stop (List Char)) (List β × List Char) :=
  match separator s with
  | .error (.mismatch _) => .ok ([], s)
  | .error stop => .error stop
  | .ok (_, behind) =>
    match item behind with
    | .error (.mismatch _) => .ok ([], s)
    | .error stop => .error stop
    | .ok (found, left) =>
      if left.length < s.length then do
        let (items, rest) ← furtherItems separator item left
        .ok (found :: items, rest)
      else .error (.mismatch s)
termination_by s.length

theorem furtherItems_of_further {separator : Parser (List Char) α} {item : Parser (List Char) β}
    {s rest : List Char} {items : List β} (h : Further separator item s items rest) :
    furtherItems separator item s = .ok (items, rest) := by
  induction h with
  | noSeparator hseparator => rw [furtherItems, hseparator]
  | noItem hseparator hitem =>
      rw [furtherItems, hseparator]
      simp only [hitem]
  | next hseparator hshorter hitem hleft _ ih =>
      rw [furtherItems, hseparator]
      simp only [hitem]
      rw [if_pos (Nat.lt_of_le_of_lt hleft hshorter), ih]
      rfl

/-- The toolkit in which a fault is the text that is left. -/
def Toolkit.plain : Toolkit (List Char) where
  takeWhile fits s := .ok (s.takeWhile fits, s.dropWhile fits)
  takeTill fits s := .ok (s.takeWhile (!fits ·), s.dropWhile (!fits ·))
  char c s := if s.head? = some c then .ok (c, s.tail) else .error (.mismatch s)
  rest s := .ok (s, [])
  separatedPair first separator second s := do
    let (a, s) ← first s
    let (_, s) ← separator s
    let (c, s) ← second s
    .ok ((a, c), s)
  separatedList separator item s := do
    let (found, s) ← item s
    let (items, s) ← furtherItems separator item s
    .ok (found :: items, s)

theorem lawful_plain : Toolkit.plain.Lawful where
  takeWhile _ _ := rfl
  takeTill _ _ := rfl
  char c s := by simp [Toolkit.plain]
  charMismatch c s h := ⟨s, if_neg h⟩
  rest _ := rfl
  separatedPair _ _ _ _ := rfl
  separatedList {_ _ separator item s left rest found items} hitem hfurther := by
    have hrest := furtherItems_of_further hfurther
    simp only [Toolkit.plain, hitem, hrest, bind, Except.bind]

end Plain

end TaskRevision.Text
