import TaskRevision.Decimal.Shortest
/-!
# Numbers of a document

A number written without point and exponent, within 64 bits, is kept as an integer; every other
number is kept as a binary64 value.  The two never mix: `1` and `1.0` are different numbers and are
written differently.

* `Number.textL` — the text of a number;
* `layoutL` — where the point and the exponent of a decimal stand.
-/

namespace TaskRevision.Json

/-- A number of a document. -/
inductive Number where
  /-- An integer. -/
  | integer (n : Int)
  /-- Any other finite number. -/
  | real (x : Float)
deriving Repr, Inhabited

/-! ## Integers -/

/-- The decimal digits of a natural number. -/
def naturalL (n : Nat) : List Char := Nat.toDigits 10 n

/-- An integer in decimal, with a minus sign if it is negative. -/
def integerL (n : Int) : List Char :=
  if n < 0 then '-' :: naturalL n.natAbs else naturalL n.natAbs

/-! ## Reals -/

/-- The least power of ten that the leading digit of a plain decimal may count. -/
def plainFrom : Int := -5

/-- The greatest power of ten that the leading digit of a plain decimal may count. -/
def plainUpTo : Int := 15

/-- The decimal `digits * 10 ^ power` as text.  It is written plainly, with a digit on either side
of the point, while its leading digit counts a power from `plainFrom` to `plainUpTo`; otherwise with
one digit before the point and a signed exponent. -/
def layoutL (digits : Nat) (power : Int) : List Char :=
  let all := naturalL digits
  let leading := power + all.length - 1
  let ds := (all.reverse.dropWhile (· = '0')).reverse
  if plainFrom ≤ leading && leading ≤ plainUpTo then
    if leading < 0 then ['0', '.'] ++ List.replicate (-leading - 1).toNat '0' ++ ds
    else
      let whole := leading.toNat + 1
      let padded := ds ++ List.replicate (whole - ds.length) '0'
      let fraction := padded.drop whole
      padded.take whole ++ '.' :: (if fraction.isEmpty then ['0'] else fraction)
  else
    let sign := if leading < 0 then '-' else '+'
    let fraction := if ds.length ≤ 1 then [] else '.' :: ds.drop 1
    ds.take 1 ++ fraction ++ 'e' :: sign :: naturalL leading.natAbs

/-- A finite real as text: the fewest digits that read back. -/
def realL (x : Float) : List Char :=
  let bits := x.toBits
  let magnitude := Decimal.Magnitude.ofBits bits
  let text :=
    if magnitude.mantissa = 0 then ['0', '.', '0']
    else
      let chosen := Decimal.shortest magnitude
      layoutL chosen.1 chosen.2
  if bits.toNat / Nat.pow 2 63 = 1 then '-' :: text else text

/-- The text of a number. -/
def Number.textL : Number → List Char
  | .integer n => integerL n
  | .real x => realL x

example : layoutL 15 299 = "1.5e+300".toList := by decide

example : layoutL 1 (-5) = "0.00001".toList := by decide

example : layoutL 100 0 = "100.0".toList := by decide

end TaskRevision.Json
