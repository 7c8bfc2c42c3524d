/-!
# The shortest decimal of a binary fraction

A binary64 number stands for all reals that round to it.  These form an interval around the number,
with its ends included when the mantissa is even.  Among the decimals in that interval the one with
the fewest digits is chosen; of several such the nearest to the number, and of two equally near the
even one.  All of it is exact arithmetic on natural numbers.

* `Magnitude.ofBits` — mantissa and exponent of a finite number;
* `Span` — the interval as three fractions over one denominator, measured in any power of ten;
* `shortest` — the digits chosen and the power of ten they count.
-/

namespace TaskRevision.Decimal

/-! ## Binary magnitudes -/

/-- A finite magnitude `mantissa * 2 ^ exponent`. -/
structure Magnitude where
  /-- The integer factor. -/
  mantissa : Nat
  /-- The power of two. -/
  exponent : Int
  /-- The neighbour below is half as far away as the neighbour above. -/
  closeBelow : Bool
deriving DecidableEq, Repr

/-- The magnitude in the bits of a finite binary64 number, whatever its sign. -/
def Magnitude.ofBits (bits : UInt64) : Magnitude :=
  let biased : Nat := bits.toNat / Nat.pow 2 52 % Nat.pow 2 11
  let fraction : Nat := bits.toNat % Nat.pow 2 52
  if biased = 0 then ⟨fraction, -1074, false⟩
  else ⟨Nat.pow 2 52 + fraction, (biased : Int) - 1075, fraction = 0 && biased > 1⟩

/-! ## The reals that round to a magnitude -/

/-- An interval around a value, as numerators over one denominator. -/
structure Span where
  /-- The lower end. -/
  low : Nat
  /-- The value itself. -/
  mid : Nat
  /-- The upper end. -/
  high : Nat
  /-- The common denominator. -/
  den : Nat
  /-- Whether the ends belong to the interval. -/
  closed : Bool
deriving DecidableEq, Repr

/-- The reals that round to the magnitude. -/
def Magnitude.span (x : Magnitude) : Span :=
  let quarter := Nat.pow 2 (x.exponent - 2).toNat
  { low := (4 * x.mantissa - if x.closeBelow then 1 else 2) * quarter
    mid := 4 * x.mantissa * quarter
    high := (4 * x.mantissa + 2) * quarter
    den := Nat.pow 2 (2 - x.exponent).toNat
    closed := x.mantissa % 2 = 0 }

namespace Span

/-- The same interval, measured in units of `10 ^ power`. -/
def inUnits (s : Span) (power : Int) : Span :=
  let finer := Nat.pow 10 (-power).toNat
  { s with
    low := s.low * finer
    mid := s.mid * finer
    high := s.high * finer
    den := s.den * Nat.pow 10 power.toNat }

/-- Whether the whole number lies in the interval. -/
def contains (s : Span) (n : Nat) : Bool :=
  if s.closed then s.low ≤ n * s.den && n * s.den ≤ s.high
  else s.low < n * s.den && n * s.den < s.high

/-- The whole number in the interval that is nearest to its value; of two, the even one. -/
def nearest? (s : Span) : Option Nat :=
  let below := s.mid / s.den
  match s.contains below, s.contains (below + 1) with
  | true, true =>
    match compare (2 * s.mid) ((2 * below + 1) * s.den) with
    | .lt => some below
    | .gt => some (below + 1)
    | .eq => some (if below % 2 = 0 then below else below + 1)
  | true, false => some below
  | false, true => some (below + 1)
  | false, false => none

/-- The number of places before the point, at most zero for a value below one: the value is less
than this power of ten and at least a tenth of it.  No binary64 number needs more than 400 places
after the point to show its leading digit. -/
def places (s : Span) : Int :=
  ((Nat.toDigits 10 (s.mid * Nat.pow 10 400 / s.den)).length : Int) - 400

end Span

/-! ## The choice of digits -/

/-- The most digits any binary64 number needs. -/
def maxDigits : Nat := 17

/-- The fewest digits that round to the magnitude, with the power of ten that they count.  The exact
decimal stands in should `maxDigits` not suffice. -/
def shortest (x : Magnitude) : Nat × Int :=
  let s := x.span
  let tries := (List.range maxDigits).map fun n : Nat => s.places - (n + 1)
  let found := tries.findSome? fun power => ((s.inUnits power).nearest?).map fun n => (n, power)
  found.getD
    (x.mantissa * Nat.pow 2 x.exponent.toNat * Nat.pow 5 (-x.exponent).toNat, min x.exponent 0)

example : shortest (.ofBits 0x3FD3333333333334) = (30000000000000004, -17) := by decide +kernel

example : shortest (.ofBits 0x0000000000000001) = (5, -324) := by decide +kernel

end TaskRevision.Decimal
