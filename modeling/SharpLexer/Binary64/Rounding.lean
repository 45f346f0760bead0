import SharpLexer.Binary64.Basic

/-!
# Rounding a fraction to the nearest number

`ofRatio` is the number nearest to a fraction of natural numbers.  All of
the work is exact integer arithmetic.  The fraction is measured in units
of `2 ^ -1074`, the units are grouped so that a group count has 53 bits,
and the count is rounded once.
-/

namespace SharpLexer.Binary64

/-- The quotient rounded to the nearest natural number.  A half goes to
the even neighbour. -/
def divNearest (num den : Nat) : Nat :=
  let quotient := num / den
  let remainder := num % den
  if 2 * remainder < den then quotient
  else if den < 2 * remainder then quotient + 1
  else quotient + quotient % 2

/-- The rounded quotient is at most half a unit off. -/
theorem divNearest_near (num : Nat) {den : Nat} (h : 0 < den) :
    2 * (divNearest num den * den) ≤ 2 * num + den ∧
      2 * num ≤ 2 * (divNearest num den * den) + den := by
  have hdiv := Nat.div_add_mod' num den
  have hlt := Nat.mod_lt num h
  have hparity : num / den % 2 = 0 ∨ num / den % 2 = 1 := by omega
  simp only [divNearest]
  split
  · omega
  · split
    · rw [Nat.add_mul]
      omega
    · rcases hparity with h0 | h1
      · rw [h0, Nat.add_zero]
        omega
      · rw [h1, Nat.add_mul]
        omega

/-- A quotient without a remainder is not rounded. -/
@[simp] theorem divNearest_mul (count : Nat) {den : Nat} (h : 0 < den) :
    divNearest (count * den) den = count := by
  simp [divNearest, h]

/-- The magnitude nearest to `num / den`, with a half going to the even
pattern.  `doublings` tells how many units make one step at this size, as
a power of two.  The group count carries the leading bit, which adds one
to the exponent field, and a count that rounds up to 54 bits carries into
the exponent in the same way.  Everything past the greatest finite number
is infinite. -/
def magnitudeOfRatio (num den : Nat) : Nat :=
  let scaled := num * Nat.pow 2 leastExponent
  let doublings := (scaled / den).log2 - 52
  min infinity (doublings * Nat.pow 2 52 + divNearest scaled (den * Nat.pow 2 doublings))

/-- The number nearest to `num / den`. -/
def ofRatio (num den : Nat) : Binary64 := ⟨(magnitudeOfRatio num den).toUInt64⟩

end SharpLexer.Binary64
