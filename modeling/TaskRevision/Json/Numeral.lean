import TaskRevision.Json.Fault
/-!
# Numerals of a document

A numeral is an optional minus sign, a whole part without leading zeros, and optionally a fraction
and an exponent.  Its digits are collected into a significand of at most 64 bits; digits beyond that
only move the exponent (in the whole part) or are dropped (in the fraction).  Without fraction and
exponent the significand is an integer if it fits 64 bits with its sign; otherwise the value is the
significand scaled by a power of ten, each step rounded once.

* `collect` — digits that fit the significand;
* `scale` — the significand times a power of ten;
* `numeral` — the whole numeral.
-/

namespace TaskRevision.Json

/-! ## Digits -/

/-- The value of a decimal digit. -/
def digitValue? (c : Char) : Option Nat :=
  if '0' ≤ c && c ≤ '9' then some (c.toNat - '0'.toNat) else none

/-- Whether the character is a decimal digit. -/
def isDigit (c : Char) : Bool := (digitValue? c).isSome

/-- Whether a digit is the next character. -/
def startsWithDigit : List Char → Bool
  | [] => false
  | c :: _ => isDigit c

/-- The significand with the leading digits of the text that still fit it, how many these are, and
the text behind them. -/
def collect (significand count : Nat) : List Char → Nat × Nat × List Char
  | [] => (significand, count, [])
  | c :: s =>
    match digitValue? c with
    | some d =>
      if significand * 10 + d < Nat.pow 2 64 then collect (significand * 10 + d) (count + 1) s
      else (significand, count, c :: s)
    | none => (significand, count, c :: s)

/-- How many digits the text starts with, and the text behind them. -/
def skipDigits (s : List Char) : Nat × List Char :=
  ((s.takeWhile isDigit).length, s.dropWhile isDigit)

/-! ## Scaling -/

/-- The greatest power of ten that one step multiplies or divides by. -/
def maxStep : Nat := 308

/-- The binary64 value nearest to a power of ten. -/
def powerOfTen (n : Nat) : Float := Float.ofScientific 1 false n

/-- Divides by a power of ten, in steps of at most `maxStep`. -/
def shrink (x : Float) (power : Nat) : Float :=
  if power ≤ maxStep then x / powerOfTen power
  else if x == 0 then x
  else shrink (x / powerOfTen maxStep) (power - maxStep)
termination_by power
decreasing_by simp only [maxStep] at *; omega

/-- The significand times ten to the given power, or nothing if that is too large. -/
def scale? (significand : Nat) (power : Int) : Option Float :=
  let x := Float.ofNat significand
  if power < 0 then some (shrink x power.natAbs)
  else if power ≤ maxStep then
    let y := x * powerOfTen power.natAbs
    if y.isInf then none else some y
  else if x == 0 then some x
  else none

/-! ## Numerals -/

/-- The sign in front of a numeral. -/
inductive Sign where
  /-- No sign. -/
  | plus
  /-- A minus sign. -/
  | minus
deriving DecidableEq, Repr

/-- The value under the sign. -/
def Sign.real : Sign → Float → Number
  | .plus, x => .real x
  | .minus, x => .real (-x)

/-- The integer under the sign, if it fits 64 bits; a zero with a minus sign is no integer. -/
def Sign.whole (sign : Sign) (n : Nat) : Number :=
  match sign with
  | .plus => .integer n
  | .minus => if 0 < n && n ≤ Nat.pow 2 63 then .integer (-n) else .real (-Float.ofNat n)

/-- The value of a numeral that ends here. -/
def finish (sign : Sign) (significand : Nat) (power : Int) : Reader Number := fun s =>
  match scale? significand power with
  | some x => .ok (sign.real x, s)
  | none => .error { cause := .outOfRange, rest := s }

/-- The greatest exponent that is read; a longer one is settled without its value. -/
def maxExponent : Nat := Nat.pow 2 31 - 1

/-- Reads the digits of an exponent of the given sign, behind the first. -/
def exponentDigits (sign : Sign) (significand : Nat) (power : Int) (negative : Bool)
    (exponent : Nat) : Reader Number
  | [] => finish sign significand (if negative then power - exponent else power + exponent) []
  | c :: s =>
    match digitValue? c with
    | none =>
      finish sign significand (if negative then power - exponent else power + exponent) (c :: s)
    | some d =>
      if exponent * 10 + d ≤ maxExponent then
        exponentDigits sign significand power negative (exponent * 10 + d) s
      else if significand = 0 || negative then .ok (sign.real 0, s.dropWhile isDigit)
      else .error { cause := .outOfRange, rest := s }

/-- Reads an exponent behind its sign. -/
def exponentBody (sign : Sign) (significand : Nat) (power : Int) (negative : Bool) : Reader Number
  | [] => .error { cause := .endInValue, rest := [] }
  | c :: s =>
    match digitValue? c with
    | some d => exponentDigits sign significand power negative d s
    | none => .error { cause := .badNumeral, rest := c :: s, ahead := 1 }

/-- Reads an exponent behind its mark. -/
def exponent (sign : Sign) (significand : Nat) (power : Int) : Reader Number
  | '+' :: s => exponentBody sign significand power false s
  | '-' :: s => exponentBody sign significand power true s
  | s => exponentBody sign significand power false s

/-- Reads an exponent if there is one. -/
def exponent? (sign : Sign) (significand : Nat) (power : Int) : Reader Number
  | 'e' :: s | 'E' :: s => exponent sign significand power s
  | s => finish sign significand power s

/-- Reads a fraction behind the point; the digits before it count the given power of ten. -/
def fraction (sign : Sign) (significand : Nat) (power : Int) : Reader Number := fun s =>
  let (significand, count, rest) := collect significand 0 s
  if startsWithDigit rest then exponent? sign significand (power - count) (rest.dropWhile isDigit)
  else if count = 0 then
    .error (.atNext (if rest.isEmpty then .endInValue else .badNumeral) rest)
  else exponent? sign significand (power - count) rest

/-- Reads what may follow a whole part that fits the significand. -/
def afterWhole (sign : Sign) (significand : Nat) : Reader Number
  | '.' :: s => fraction sign significand 0 s
  | 'e' :: s | 'E' :: s => exponent sign significand 0 s
  | s => .ok (sign.whole significand, s)

/-- Reads a numeral behind its sign. -/
def unsigned (sign : Sign) : Reader Number
  | [] => .error { cause := .endInValue, rest := [] }
  | '0' :: s =>
    if startsWithDigit s then .error (.atNext .badNumeral s) else afterWhole sign 0 s
  | c :: s =>
    match digitValue? c with
    | none => .error { cause := .badNumeral, rest := c :: s, ahead := 1 }
    | some d =>
      let (significand, _, rest) := collect d 0 s
      if startsWithDigit rest then
        match skipDigits rest with
        | (dropped, '.' :: rest) => fraction sign significand dropped rest
        | (dropped, rest) => exponent? sign significand dropped rest
      else afterWhole sign significand rest

/-- Reads a numeral. -/
def numeral : Reader Number
  | '-' :: s => unsigned .minus s
  | s => unsigned .plus s

end TaskRevision.Json
