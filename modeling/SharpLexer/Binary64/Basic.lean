/-!
# Binary floating point numbers of 64 bits

A number is kept as its bit pattern: a sign bit, eleven bits of exponent
and 52 bits of fraction.  The pattern without its sign is the `magnitude`.
Magnitudes are ordered as the numbers are, the greatest finite number
stands just below `infinity`, and every pattern above `infinity` is no
number at all.

Every finite number is a multiple of `2 ^ -1074`, so its absolute value is
a natural number of such `units`.  Powers are written with `Nat.pow`, which
means the same whatever other powers are in scope.
-/

namespace SharpLexer

/-- A 64 bit floating point number, by its bit pattern. -/
structure Binary64 where
  bits : UInt64
  deriving DecidableEq

namespace Binary64

/-- The exponent of the least positive number, as a power of one half. -/
def leastExponent : Nat := 1074

/-- The magnitude of the two infinities. -/
def infinity : Nat := 0x7FF0000000000000

/-- The pattern without the sign bit. -/
def magnitude (x : Binary64) : Nat := x.bits.toNat % Nat.pow 2 63

/-- The sign bit. -/
def isNegative (x : Binary64) : Bool := Nat.pow 2 63 ≤ x.bits.toNat

/-- A finite number: neither an infinity nor without a value. -/
def isFinite (x : Binary64) : Bool := x.magnitude < infinity

/-- A pattern that stands for no number. -/
def isNaN (x : Binary64) : Bool := infinity < x.magnitude

/-- The absolute value of a finite magnitude in units of `2 ^ -1074`.  An
exponent of zero marks a number without the leading bit. -/
def units (magnitude : Nat) : Nat :=
  let exponent := magnitude / Nat.pow 2 52
  let fraction := magnitude % Nat.pow 2 52
  if exponent = 0 then fraction else (Nat.pow 2 52 + fraction) * Nat.pow 2 (exponent - 1)

/-- Equality of numbers rather than of patterns: the two zeros are equal,
and what is no number differs from everything. -/
def equals (x y : Binary64) : Bool :=
  !x.isNaN && !y.isNaN && (x.bits = y.bits || (x.magnitude = 0 && y.magnitude = 0))

end Binary64

end SharpLexer
