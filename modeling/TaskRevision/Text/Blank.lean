/-!
# Blank text

White space in the sense of the Unicode property White_Space, and trimming by it.  Keys, values and
names in update strings are compared after trimming, so these functions decide what two spellings
have in common.

* `isBlank` — membership in the ten ranges (25 characters) of the property;
* `trimL`, `trim` — a text without the blank characters at its two ends;
* `isBlankText` — a text of nothing but blank characters.
-/

namespace TaskRevision.Text

/-! ## The property -/

/-- Closed ranges of the blank code points, ascending and apart. -/
def blankRanges : List (Nat × Nat) :=
  [(0x09, 0x0D), (0x20, 0x20), (0x85, 0x85), (0xA0, 0xA0), (0x1680, 0x1680), (0x2000, 0x200A),
    (0x2028, 0x2029), (0x202F, 0x202F), (0x205F, 0x205F), (0x3000, 0x3000)]

/-- Whether the character is white space. -/
def isBlank (c : Char) : Bool :=
  blankRanges.any fun r => r.1 ≤ c.toNat && c.toNat ≤ r.2

theorem isBlank_of_isWhitespace {c : Char} (h : c.isWhitespace = true) : isBlank c = true := by
  simp only [Char.isWhitespace, Bool.or_eq_true, decide_eq_true_eq] at h
  rcases h with ((h | h) | h) | h <;> subst h <;> decide

/-! ## Trimming -/

/-- The characters from the first that is not blank. -/
def trimStartL (s : List Char) : List Char := s.dropWhile isBlank

/-- The characters up to the last that is not blank. -/
def trimEndL (s : List Char) : List Char := (s.reverse.dropWhile isBlank).reverse

/-- The characters between the blank ends. -/
def trimL (s : List Char) : List Char := trimEndL (trimStartL s)

/-- The text without its blank ends. -/
def trim (s : String) : String := String.ofList (trimL s.toList)

/-- Whether the text is blank from end to end. -/
def isBlankText (s : String) : Bool := s.toList.all isBlank

@[simp] theorem toList_trim (s : String) : (trim s).toList = trimL s.toList := by
  simp [trim]

example : trim "\u2003 web\u00a0" = "web" := by decide

example : isBlank '\u200b' = false := by decide

end TaskRevision.Text
