import TaskRevision.Text.Unprintable
/-!
# Quoted text in messages

A text shown between double quotes, with a backslash before the characters that would end it or
disturb the line.  Characters that have no shape of their own are shown by their code point.
-/

namespace TaskRevision.Text

/-- The character as it stands between the quotes. -/
def quotedChar : Char → List Char
  | '"' => ['\\', '"']
  | '\\' => ['\\', '\\']
  | '\n' => ['\\', 'n']
  | '\r' => ['\\', 'r']
  | '\t' => ['\\', 't']
  | '\x00' => ['\\', '0']
  | c =>
    if isPrintable c then [c]
    else ['\\', 'u', '\x7b'] ++ Nat.toDigits 16 c.toNat ++ ['\x7d']

/-- The text between double quotes. -/
def quoted (s : String) : String :=
  String.ofList ('"' :: s.toList.flatMap quotedChar ++ ['"'])

example : quoted "a\"\u0001é" = "\"a\\\"\\u\x7b1\x7dé\"" := by decide +kernel

end TaskRevision.Text
