import Mathlib.Algebra.Order.Field.Basic
import Mathlib.Algebra.Order.Ring.Abs
import Mathlib.Algebra.Ring.Parity
import Mathlib.Data.Rat.Cast.Order
import Mathlib.Order.Monotone.Basic
import Mathlib.Tactic.Positivity
import Mathlib.Tactic.Ring
import SharpLexer.Binary64.Basic

/-!
# The numbers of the patterns

A finite pattern stands for a rational number.  Its sign bit gives the sign, and
its magnitude the absolute value.

* `Binary64.toRat` is the number of a pattern by its three fields, and
  `Binary64.toRat_eq` tells it by the sign and the `Binary64.value` of the
  magnitude.
* A group is a count below `2 ^ 53` with a power of two.  `Binary64.exists_group`
  writes every magnitude as a group, and `Binary64.units_strictMono` follows from
  `Binary64.units_group`, with no case for the carry.
* `Binary64.units_on_grid` says which magnitudes are multiples of a power of two.
-/

namespace SharpLexer.Binary64

/-! ## Values -/

/-- The exponent field of a magnitude. -/
def exponent (magnitude : Nat) : Nat := magnitude / 2 ^ 52

/-- The fraction field, with the leading bit in front of it unless the exponent
field is zero. -/
def significand (magnitude : Nat) : Nat :=
  if exponent magnitude = 0 then magnitude % 2 ^ 52 else 2 ^ 52 + magnitude % 2 ^ 52

/-- The number that a finite pattern stands for.  The two least exponent fields
share one power of two. -/
def toRat (x : Binary64) : ℚ :=
  (if x.isNegative then -1 else 1) *
    (significand x.magnitude * 2 ^ ((max (exponent x.magnitude) 1 : ℤ) - 1075))

theorem units_eq (magnitude : Nat) :
    units magnitude = significand magnitude * 2 ^ (max (exponent magnitude) 1 - 1) := by
  by_cases hzero : exponent magnitude = 0
  · have hunits : units magnitude = magnitude % 2 ^ 52 := if_pos hzero
    rw [hunits, significand, if_pos hzero, hzero]
    simp
  · have hunits : units magnitude =
        (2 ^ 52 + magnitude % 2 ^ 52) * 2 ^ (exponent magnitude - 1) := if_neg hzero
    have hmax : max (exponent magnitude) 1 = exponent magnitude := by omega
    rw [hunits, significand, if_neg hzero, hmax]

/-- The absolute value of a magnitude. -/
def value (magnitude : Nat) : ℚ := units magnitude / 2 ^ leastExponent

theorem value_nonneg (magnitude : Nat) : 0 ≤ value magnitude := by
  rw [value]
  positivity

/-- The sign bit gives the sign, and the magnitude the absolute value. -/
theorem toRat_eq (x : Binary64) :
    x.toRat = (if x.isNegative then -1 else 1) * value x.magnitude := by
  have hpos : 1 ≤ max (exponent x.magnitude) 1 := Nat.le_max_right _ 1
  have hsplit : ((max (exponent x.magnitude) 1 : ℤ)) - 1075 =
      ((max (exponent x.magnitude) 1 - 1 : ℕ) : ℤ) - (leastExponent : ℕ) := by
    push_cast [Nat.cast_sub hpos, leastExponent]
    ring
  rw [toRat, hsplit, zpow_sub₀ two_ne_zero, zpow_natCast, zpow_natCast, value, units_eq,
    Nat.cast_mul, Nat.cast_pow, Nat.cast_ofNat, mul_div_assoc]

theorem toRat_of_nonneg {x : Binary64} (h : x.isNegative = false) :
    x.toRat = value x.magnitude := by
  simp [toRat_eq, h]

theorem abs_toRat (x : Binary64) : |x.toRat| = value x.magnitude := by
  rw [toRat_eq]
  split
  · rw [neg_one_mul, abs_neg, abs_of_nonneg (value_nonneg _)]
  · rw [one_mul, abs_of_nonneg (value_nonneg _)]

theorem even_significand_iff (magnitude : Nat) :
    Even (significand magnitude) ↔ Even magnitude := by
  have hmod : (magnitude % 2 ^ 52) % 2 = magnitude % 2 := by omega
  rw [significand, Nat.even_iff, Nat.even_iff]
  split <;> omega

/-! ## Order -/

/-- The units of a group: a count of 53 bits at most, whose leading bit is set
unless the power is the least one.  A count that is carried into the 54th bit is
the same group as half of it with the next power. -/
theorem units_group {power count : Nat} (hcount : count ≤ 2 ^ 53)
    (hleading : power = 0 ∨ 2 ^ 52 ≤ count) :
    units (power * 2 ^ 52 + count) = count * 2 ^ power := by
  have hcases : count < 2 ^ 52 ∨ (2 ^ 52 ≤ count ∧ count < 2 ^ 53) ∨ count = 2 ^ 53 := by omega
  simp only [units, Nat.pow_eq]
  rcases hcases with hlt | ⟨hle, hlt⟩ | rfl
  · obtain rfl : power = 0 := by omega
    rw [Nat.zero_mul, Nat.zero_add, if_pos (Nat.div_eq_of_lt hlt), Nat.mod_eq_of_lt hlt]
    simp
  · have hdiv : (power * 2 ^ 52 + count) / 2 ^ 52 = power + 1 := by omega
    have hmod : (power * 2 ^ 52 + count) % 2 ^ 52 = count - 2 ^ 52 := by omega
    rw [hdiv, hmod, if_neg (Nat.succ_ne_zero power), Nat.add_sub_cancel, Nat.add_sub_cancel' hle]
  · have hdiv : (power * 2 ^ 52 + 2 ^ 53) / 2 ^ 52 = power + 2 := by omega
    have hmod : (power * 2 ^ 52 + 2 ^ 53) % 2 ^ 52 = 0 := by omega
    have hpred : power + 2 - 1 = power + 1 := rfl
    rw [hdiv, hmod, if_neg (Nat.succ_ne_zero (power + 1)), hpred, Nat.add_zero, pow_succ]
    ring

/-- Every magnitude is a group. -/
theorem exists_group (magnitude : Nat) :
    ∃ power count, magnitude = power * 2 ^ 52 + count ∧ count < 2 ^ 53 ∧
      (power = 0 ∨ 2 ^ 52 ≤ count) := by
  have hparts := Nat.div_add_mod' magnitude (2 ^ 52)
  have hmod := Nat.mod_lt magnitude (Nat.two_pow_pos 52)
  rcases hexponent : magnitude / 2 ^ 52 with _ | power
  · exact ⟨0, magnitude, by omega, by omega, Or.inl rfl⟩
  · refine ⟨power, 2 ^ 52 + magnitude % 2 ^ 52, ?_, by omega, Or.inr (by omega)⟩
    rw [hexponent, Nat.add_mul, Nat.one_mul] at hparts
    omega

/-- A greater magnitude has more units. -/
theorem units_strictMono : StrictMono units := by
  refine strictMono_nat_of_lt_succ fun magnitude => ?_
  obtain ⟨power, count, rfl, hcount, hleading⟩ := exists_group magnitude
  rw [units_group hcount.le hleading, Nat.add_assoc,
    units_group (Nat.succ_le_of_lt hcount) (by omega)]
  exact Nat.mul_lt_mul_of_pos_right (Nat.lt_succ_self count) (Nat.two_pow_pos power)

theorem value_strictMono : StrictMono value := by
  intro a b hlt
  have hunits : (units a : ℚ) < units b := by exact_mod_cast units_strictMono hlt
  exact div_lt_div_of_pos_right hunits (by positivity)

@[simp] theorem value_zero : value 0 = 0 := by
  have hunits : units 0 = 0 := rfl
  simp [value, hunits]

/-- On the grid of the multiples of `2 ^ power`, or below the point of that grid
with the leading bit alone. -/
theorem units_on_grid (magnitude power : Nat) :
    (∃ count, units magnitude = count * 2 ^ power) ∨
      0 < power ∧ units magnitude < 2 ^ 52 * 2 ^ power := by
  obtain ⟨other, count, rfl, hcount, hleading⟩ := exists_group magnitude
  rw [units_group hcount.le hleading]
  rcases Nat.lt_or_ge other power with hlt | hle
  · refine Or.inr ⟨by omega, ?_⟩
    calc count * 2 ^ other < 2 ^ 53 * 2 ^ other :=
          Nat.mul_lt_mul_of_pos_right hcount (Nat.two_pow_pos other)
      _ = 2 ^ 52 * 2 ^ (other + 1) := by ring
      _ ≤ 2 ^ 52 * 2 ^ power :=
          Nat.mul_le_mul_left _ (Nat.pow_le_pow_right Nat.two_pos hlt)
  · refine Or.inl ⟨count * 2 ^ (other - power), ?_⟩
    rw [Nat.mul_assoc, ← pow_add, Nat.sub_add_cancel hle]

end SharpLexer.Binary64
