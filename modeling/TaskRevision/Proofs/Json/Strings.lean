import Mathlib.Data.List.Basic
import TaskRevision.Json.Lexeme
import TaskRevision.Json.Writer
/-!
# Gaps and strings that have been written

The smallest round trips of a document.  White space that a style puts between tokens is a gap, and a
text that has been put between quotes, each character escaped as it has to be, is read as it was.

* `skipGaps_append`, `isSpace_breakL` — what a style lays out is passed over;
* `hexUnit?_hexDigit` — a control character is read back from its number;
* `stringBody_stringL` — **a written string is read back**, whatever stands behind it.
-/

namespace TaskRevision.Json

/-! ## Gaps -/

/-- The text consists of gaps. -/
def IsSpace (s : List Char) : Prop := ∀ c ∈ s, isGap c = true

theorem isSpace_nil : IsSpace [] := by simp [IsSpace]

theorem skipGaps_append {before : List Char} (h : IsSpace before) (s : List Char) :
    skipGaps (before ++ s) = skipGaps s :=
  List.dropWhile_append_of_pos h

theorem skipGaps_cons {c : Char} (h : isGap c = false) (s : List Char) :
    skipGaps (c :: s) = c :: s := by
  simp [skipGaps, h]

/-- Behind gaps a token comes next. -/
theorem skipGaps_append_cons {before : List Char} (hbefore : IsSpace before) {c : Char}
    (hc : isGap c = false) (s : List Char) : skipGaps (before ++ c :: s) = c :: s := by
  rw [skipGaps_append hbefore, skipGaps_cons hc]

/-- The line breaks of a style are gaps. -/
theorem isSpace_breakL (style : Style) (level : Nat) : IsSpace (style.breakL level) := by
  intro c hc
  cases style with
  | compact => simp [Style.breakL] at hc
  | pretty =>
      have hcases : c = '\n' ∨ c = ' ' := by
        simp only [Style.breakL, List.mem_cons, List.mem_replicate] at hc
        exact hc.imp_right And.right
      rcases hcases with rfl | rfl <;> decide

/-! ## Strings -/

/-- A number below sixteen is read back from its digit. -/
theorem hexValue?_hexDigit {n : Nat} (h : n < 16) : hexValue? (hexDigit n) = some n := by
  have hall : ∀ n : Nat, n < 16 → hexValue? (hexDigit n) = some n := by decide
  exact hall n h

/-- The number of a control character is read back from its two digits. -/
theorem hexUnit?_hexDigit {n : Nat} (h : n < 0x20) :
    hexUnit? '0' '0' (hexDigit (n / 16)) (hexDigit (n % 16)) = some n := by
  have hzero : hexValue? '0' = some 0 := by decide
  have hhigh : hexValue? (hexDigit (n / 16)) = some (n / 16) := hexValue?_hexDigit (by omega)
  have hlow : hexValue? (hexDigit (n % 16)) = some (n % 16) := hexValue?_hexDigit (by omega)
  have hsum : ((0 * 16 + 0) * 16 + n / 16) * 16 + n % 16 = n := by omega
  simp only [hexUnit?, hzero, hhigh, hlow, bind, Option.bind, pure, hsum]

/-- A character that needs no escape is read as it stands. -/
theorem stringFrom_plain (seen : List Char) {c : Char} (hquote : c ≠ '"') (hslash : c ≠ '\\')
    (hcontrol : ¬ c.toNat < 0x20) (s : List Char) :
    stringFrom seen (c :: s) = stringFrom (c :: seen) s := by
  rw [stringFrom.eq_def]
  split
  · next heq => cases heq
  · next heq => exact absurd (List.cons.inj heq).1 hquote
  · next heq => exact absurd (List.cons.inj heq).1 hslash
  · next heq => exact absurd (List.cons.inj heq).1 hslash
  · next heq => exact absurd (List.cons.inj heq).1 hslash
  · next heq => exact absurd (List.cons.inj heq).1 hslash
  · next heq =>
    cases heq
    rw [if_neg hcontrol]

/-- An escaped character is read as the character. -/
theorem stringFrom_escapedL (seen : List Char) (c : Char) (s : List Char) :
    stringFrom seen (escapedL c ++ s) = stringFrom (c :: seen) s := by
  unfold escapedL
  split
  · simp [stringFrom, unescape?]
  · simp [stringFrom, unescape?]
  · simp [stringFrom, unescape?]
  · simp [stringFrom, unescape?]
  · simp [stringFrom, unescape?]
  · simp [stringFrom, unescape?]
  · simp [stringFrom, unescape?]
  · next hquote hslash _ _ _ _ _ =>
    split
    · next hcontrol =>
      have hunit := hexUnit?_hexDigit hcontrol
      have hlow : isLowSurrogate c.toNat = false := by simp [isLowSurrogate]; omega
      have hhigh : isHighSurrogate c.toNat = false := by simp [isHighSurrogate]; omega
      simp [stringFrom, hunit, hlow, hhigh]
    · next hcontrol =>
      exact stringFrom_plain seen hquote hslash hcontrol s

/-- **A written string is read back**, whatever stands behind it. -/
theorem stringBody_stringL (s : String) (rest : List Char) :
    stringBody (s.toList.flatMap escapedL ++ '"' :: rest) = .ok (s, rest) := by
  have hfrom : ∀ (cs seen : List Char), stringFrom seen (cs.flatMap escapedL ++ '"' :: rest)
      = .ok (String.ofList (seen.reverse ++ cs), rest) := by
    intro cs
    induction cs with
    | nil => intro seen; simp [stringFrom]
    | cons c cs ih =>
        intro seen
        rw [List.flatMap_cons, List.append_assoc, stringFrom_escapedL, ih]
        simp
  simpa [stringBody] using hfrom s.toList []

end TaskRevision.Json
