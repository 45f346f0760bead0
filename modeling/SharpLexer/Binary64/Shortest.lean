import SharpLexer.Binary64.Rounding

/-!
# The shortest decimal that reads back

A finite number is written with as few decimal digits as still read back
as the same number, and among those with the digits nearest to its value.

A power of two has a finite decimal expansion, so every number is a whole
count of `10 ^ -1074`.  The search walks down the grids `10 ^ j` of such
counts.  On each grid only the two neighbours of the value matter, and the
finest grid holds the value itself.
-/

namespace SharpLexer.Binary64

/-- The value of a finite magnitude as a count of `10 ^ -1074`. -/
def decimalUnits (magnitude : Nat) : Nat := units magnitude * Nat.pow 5 leastExponent

/-- A count of `10 ^ -1074` that reads back as the given magnitude. -/
def readsBack (magnitude count : Nat) : Bool :=
  magnitudeOfRatio count (Nat.pow 10 leastExponent) == magnitude

/-- The multiple of `10 ^ j` next to `value` that reads back as
`magnitude`.  The nearer of the two is preferred, and of two at the same
distance the upper one. -/
def onGrid (magnitude value j : Nat) : Option Nat :=
  let step := Nat.pow 10 j
  let low := value / step * step
  let high := low + step
  let (near, far) := if 2 * (value - low) < step then (low, high) else (high, low)
  if readsBack magnitude near then some near
  else if readsBack magnitude far then some far
  else none

/-- The first grid from `10 ^ j` downwards with a point that reads back. -/
def search (magnitude value : Nat) : Nat → Nat
  | 0 => value
  | j + 1 => (onGrid magnitude value (j + 1)).getD (search magnitude value j)

/-- The count of `10 ^ -1074` with the fewest digits that reads back.  A
grid as coarse as the digits of the value are many is a safe place to
start. -/
def shortest (magnitude : Nat) : Nat :=
  let value := decimalUnits magnitude
  search magnitude value (Nat.toDigits 10 value).length

/-! ## Positional notation -/

/-- The digits of `n`, filled up with zeros in front to `width`. -/
def padded (width n : Nat) : List Char :=
  let digits := Nat.toDigits 10 n
  List.replicate (width - digits.length) '0' ++ digits

/-- The text without the zeros at its end. -/
def dropZeros (text : List Char) : List Char :=
  (text.reverse.dropWhile (· = '0')).reverse

/-- The number `count / 10 ^ places` in positional notation.  The fraction
has no superfluous zeros, and an empty fraction has no point. -/
def positional (count places : Nat) : List Char :=
  let whole := Nat.toDigits 10 (count / Nat.pow 10 places)
  let fraction := dropZeros (padded places (count % Nat.pow 10 places))
  if fraction.isEmpty then whole else whole ++ '.' :: fraction

/-- A number in positional notation, however great or small, with a sign
only if its sign bit is set. -/
def render (x : Binary64) : String :=
  if x.isNaN then "NaN"
  else
    (if x.isNegative then "-" else "") ++
      (if x.isFinite then String.ofList (positional (shortest x.magnitude) leastExponent) else "inf")

end SharpLexer.Binary64
