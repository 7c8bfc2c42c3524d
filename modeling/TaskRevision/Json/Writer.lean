import TaskRevision.Json.Value
/-!
# Writing documents

One writer for both styles: the compact text without any white space, and the pretty text with two
blanks of indentation a level.  The styles differ only in what stands after a bracket, a comma and a
colon; empty lists and objects are written alike.

* `stringL` — a text between quotes;
* `Value.writeL` — a value in a style, at a level of indentation;
* `Value.compact`, `Value.pretty` — the text of a document.
-/

namespace TaskRevision.Json

/-! ## Texts -/

/-- A hexadecimal digit, in lower case. -/
def hexDigit (n : Nat) : Char := Nat.digitChar n

/-- The character as it stands between quotes. -/
def escapedL : Char → List Char
  | '"' => ['\\', '"']
  | '\\' => ['\\', '\\']
  | '\x08' => ['\\', 'b']
  | '\x0c' => ['\\', 'f']
  | '\n' => ['\\', 'n']
  | '\r' => ['\\', 'r']
  | '\t' => ['\\', 't']
  | c =>
    if c.toNat < 0x20 then ['\\', 'u', '0', '0', hexDigit (c.toNat / 16), hexDigit (c.toNat % 16)]
    else [c]

/-- The text between quotes. -/
def stringL (s : String) : List Char := '"' :: (s.toList.flatMap escapedL ++ ['"'])

/-! ## Styles -/

/-- How a document is laid out. -/
inductive Style where
  /-- Without white space. -/
  | compact
  /-- One item or member a line, two blanks deeper at each level. -/
  | pretty
deriving DecidableEq, Repr

/-- What stands before an item, a member or a closing bracket at the given level. -/
def Style.breakL (style : Style) (level : Nat) : List Char :=
  match style with
  | .compact => []
  | .pretty => '\n' :: List.replicate (2 * level) ' '

/-- What stands between a key and its value. -/
def Style.colonL : Style → List Char
  | .compact => [':']
  | .pretty => [':', ' ']

/-! ## Values -/

mutual

/-- The value in the given style; what it holds stands one level deeper. -/
def Value.writeL (style : Style) (level : Nat) : Value → List Char
  | .null => ['n', 'u', 'l', 'l']
  | .bool true => ['t', 'r', 'u', 'e']
  | .bool false => ['f', 'a', 'l', 's', 'e']
  | .number n => n.textL
  | .string s => stringL s
  | .array [] => ['[', ']']
  | .array (item :: items) =>
    '[' :: (style.breakL (level + 1) ++ item.writeL style (level + 1)
      ++ itemsL style (level + 1) items ++ style.breakL level ++ [']'])
  | .object [] => ['\x7b', '\x7d']
  | .object ((key, value) :: members) =>
    '\x7b' :: (style.breakL (level + 1) ++ stringL key ++ style.colonL
      ++ value.writeL style (level + 1) ++ membersL style (level + 1) members
      ++ style.breakL level ++ ['\x7d'])

/-- The items after the first, each behind a comma. -/
def itemsL (style : Style) (level : Nat) : List Value → List Char
  | [] => []
  | item :: items =>
    ',' :: (style.breakL level ++ item.writeL style level ++ itemsL style level items)

/-- The members after the first, each behind a comma. -/
def membersL (style : Style) (level : Nat) : List (String × Value) → List Char
  | [] => []
  | (key, value) :: members =>
    ',' :: (style.breakL level ++ stringL key ++ style.colonL ++ value.writeL style level
      ++ membersL style level members)

end

namespace Value

/-- The document in the given style. -/
def write (style : Style) (v : Value) : String := String.ofList (v.writeL style 0)

/-- The document without white space. -/
def compact (v : Value) : String := v.write .compact

/-- The document with one item or member a line. -/
def pretty (v : Value) : String := v.write .pretty

end Value

example : (Value.object [("a", .array [.null, .bool true]), ("b", .object [])]).compact
    = "\x7b\"a\":[null,true],\"b\":\x7b\x7d\x7d" := by decide

end TaskRevision.Json
