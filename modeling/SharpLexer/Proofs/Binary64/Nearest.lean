import Mathlib.Tactic.LinearCombination
import Mathlib.Tactic.Linarith
import Mathlib.Tactic.NormNum
import SharpLexer.Binary64.Rounding
import SharpLexer.Proofs.Binary64.Value

/-!
# The nearest number

A fraction is rounded to the finite number that is nearest to it.  Of two at the
same distance, the one with the even significand is taken.  What is too great
becomes an infinity, from the middle between the greatest finite number and
`2 ^ 1024` on.

There are four groups.

* Nearest points.  `Binary64.Nearest` is about a row of points on a line, for whole
  numbers as for magnitudes.  `Nearest.unique` says that there is one such point,
  and `Nearest.succ_le_iff` where the next one takes over.
* Rounding.  `Binary64.nearest_divNearest` is about a quotient.  From it comes
  `Binary64.nearest_carried`, about the magnitude before it is cut off at the
  infinity.
* The threshold.  `Binary64.isFinite_ofRatio_iff` says from where on a fraction is
  rounded to the infinity.
* Patterns.  `Binary64.isNearest_ofRatio` says that the pattern below the threshold
  is the nearest one, and `Binary64.IsNearest.eq` that no other is.
-/

namespace SharpLexer.Binary64

/-! ## Nearest points -/

/-- Among the points of a row with an index in `within`, the one at `best` is
nearest to `t`.  If another one is as near, the index is even. -/
structure Nearest (point : ℕ → ℚ) (within : Set ℕ) (t : ℚ) (best : ℕ) : Prop where
  near : ∀ k ∈ within, |t - point best| ≤ |t - point k|
  even : ∀ k ∈ within, k ≠ best → |t - point best| = |t - point k| → Even best

namespace Nearest

variable {point : ℕ → ℚ} {within : Set ℕ} {t : ℚ} {best : ℕ}

theorem mono (h : Nearest point within t best) {inner : Set ℕ} (hsub : inner ⊆ within) :
    Nearest point inner t best :=
  ⟨fun k hk => h.near k (hsub hk), fun k hk => h.even k (hsub hk)⟩

/-- Nearness does not depend on the unit of length. -/
theorem scale (h : Nearest point within t best) {factor : ℚ} (hfactor : 0 < factor) :
    Nearest (fun k => point k * factor) within (t * factor) best := by
  have hdist : ∀ k, |t * factor - point k * factor| = |t - point k| * factor := by
    intro k
    rw [← sub_mul, abs_mul, abs_of_pos hfactor]
  constructor
  · intro k hk
    rw [hdist, hdist]
    exact mul_le_mul_of_nonneg_right (h.near k hk) hfactor.le
  · intro k hk hne htie
    rw [hdist, hdist] at htie
    exact h.even k hk hne (mul_right_cancel₀ hfactor.ne' htie)

variable (hpoint : StrictMono point)
include hpoint

/-- No two points of an unbroken row are nearest to the same number. -/
theorem unique {limit a b : ℕ} (ha : a < limit) (hb : b < limit)
    (hna : Nearest point (Set.Iio limit) t a) (hnb : Nearest point (Set.Iio limit) t b) :
    a = b := by
  wlog hlt : a < b generalizing a b
  · rcases Nat.lt_or_ge b a with hba | hba
    · exact (this hb ha hnb hna hba).symm
    · omega
  have htie : |t - point a| = |t - point b| := le_antisymm (hna.near b hb) (hnb.near a ha)
  have hevena : Even a := hna.even b hb hlt.ne' htie
  have hevenb : Even b := hnb.even a ha hlt.ne htie.symm
  -- two even indices leave one between them, whose point is nearer
  have hbetween : a + 1 < b := by
    rw [Nat.even_iff] at hevena hevenb
    omega
  have hleft : point a < point (a + 1) := hpoint (Nat.lt_succ_self a)
  have hright : point (a + 1) < point b := hpoint hbetween
  rcases abs_eq_abs.1 htie with heq | heq
  · linarith
  · have hcloser : |t - point (a + 1)| < t - point a :=
      abs_lt.2 ⟨by linarith, by linarith⟩
    have hbest := hna.near (a + 1) (hbetween.trans hb)
    exact absurd (hcloser.trans_le (le_abs_self _)) hbest.not_gt

/-- An index is passed by half of the distance from an odd index in front of it. -/
theorem succ_le_iff {m : ℕ} (hodd : ¬ Even m) (h : Nearest point Set.univ t best) :
    m + 1 ≤ best ↔ (point m + point (m + 1)) / 2 ≤ t := by
  have hstep : point m < point (m + 1) := hpoint (Nat.lt_succ_self m)
  constructor
  · intro hle
    have hbest : point (m + 1) ≤ point best := hpoint.monotone hle
    by_contra hmiddle
    have hcloser : |t - point m| < -(t - point best) := abs_lt.2 ⟨by linarith, by linarith⟩
    exact absurd (hcloser.trans_le (neg_le_abs _)) (h.near m (Set.mem_univ m)).not_gt
  · intro hmiddle
    by_contra hnot
    have hbest : point best ≤ point m := hpoint.monotone (by omega)
    have hnear := h.near (m + 1) (Set.mem_univ _)
    have hother : |t - point (m + 1)| ≤ t - point m := abs_le.2 ⟨by linarith, by linarith⟩
    have hself := le_abs_self (t - point best)
    obtain rfl : best = m := hpoint.injective (by linarith)
    have htie := le_antisymm hnear (hother.trans hself)
    exact hodd (h.even (best + 1) (Set.mem_univ _) (Nat.succ_ne_self best) htie)

end Nearest

/-! ## Rounding a quotient -/

section Quotient

variable (num : Nat) {den : Nat}

/-- The rounded quotient is at most one half off. -/
theorem abs_sub_divNearest_le (h : 0 < den) :
    |(num : ℚ) / den - divNearest num den| ≤ 1 / 2 := by
  obtain ⟨hlow, hhigh⟩ := divNearest_near num h
  have hden : (0 : ℚ) < den := by exact_mod_cast h
  have hlow' : 2 * ((divNearest num den : ℚ) * den) ≤ 2 * num + den := by exact_mod_cast hlow
  have hhigh' : 2 * (num : ℚ) ≤ 2 * (divNearest num den * den) + den := by exact_mod_cast hhigh
  have hnum : (num : ℚ) / den * den = num := div_mul_cancel₀ _ hden.ne'
  rw [abs_le]
  constructor
  · refine le_of_mul_le_mul_right ?_ hden
    linarith
  · refine le_of_mul_le_mul_right ?_ hden
    linarith

theorem divNearest_bounds (den : Nat) :
    num / den ≤ divNearest num den ∧ divNearest num den ≤ num / den + 1 := by
  simp only [divNearest]
  split
  · omega
  · split <;> omega

/-- A quotient that is one half off goes to the even neighbour. -/
theorem even_divNearest (h : 0 < den)
    (hhalf : |(num : ℚ) / den - divNearest num den| = 1 / 2) : Even (divNearest num den) := by
  have hden : (0 : ℚ) < den := by exact_mod_cast h
  have hnum : (num : ℚ) / den * den = num := div_mul_cancel₀ _ hden.ne'
  have hhalves : 2 * (divNearest num den * den) + den = 2 * num ∨
      2 * num + den = 2 * (divNearest num den * den) := by
    rcases eq_or_eq_neg_of_abs_eq hhalf with heq | heq
    · left
      have : 2 * ((divNearest num den : ℚ) * den) + den = 2 * num := by
        linear_combination 2 * hnum - 2 * (den : ℚ) * heq
      exact_mod_cast this
    · right
      have : 2 * (num : ℚ) + den = 2 * (divNearest num den * den) := by
        linear_combination 2 * (den : ℚ) * heq - 2 * hnum
      exact_mod_cast this
  have hdiv := Nat.div_add_mod' num den
  have hlt := Nat.mod_lt num h
  rw [Nat.even_iff]
  simp only [divNearest] at hhalves ⊢
  split at hhalves
  · omega
  · split at hhalves
    · rw [Nat.add_mul] at hhalves
      omega
    · next hlow hhigh =>
      rw [if_neg hlow, if_neg hhigh]
      omega

/-- The rounded quotient is the nearest integer. -/
theorem nearest_divNearest (h : 0 < den) :
    Nearest (fun count => (count : ℚ)) Set.univ ((num : ℚ) / den) (divNearest num den) := by
  have hnear := abs_sub_divNearest_le num h
  have hfar : ∀ count ≠ divNearest num den, 1 / 2 ≤ |(num : ℚ) / den - count| := by
    intro count hne
    have hgap : 1 ≤ |(count : ℚ) - divNearest num den| := by
      have hint : (count : ℤ) - divNearest num den ≠ 0 := by omega
      exact_mod_cast Int.one_le_abs hint
    have htriangle := abs_sub_le (count : ℚ) (num / den) (divNearest num den)
    rw [abs_sub_comm (count : ℚ) (num / den)] at htriangle
    linarith
  constructor
  · intro count _
    by_cases hne : count = divNearest num den
    · rw [hne]
    · exact hnear.trans (hfar count hne)
  · intro count _ hne htie
    exact even_divNearest num h (le_antisymm hnear (htie ▸ hfar count hne))

end Quotient

/-! ## Rounding a fraction -/

section Fraction

variable (num den : Nat)

/-- A fraction in units, as far as whole units go. -/
def scaled : Nat := num * 2 ^ leastExponent

/-- The power of two that groups the units of a fraction into 53 bits. -/
def power : Nat := (scaled num / den).log2 - 52

/-- The magnitude that a fraction is rounded to, with exponents of any size. -/
def carried : Nat := power num den * 2 ^ 52 + divNearest (scaled num) (den * 2 ^ power num den)

theorem magnitudeOfRatio_eq : magnitudeOfRatio num den = min infinity (carried num den) := by
  simp only [magnitudeOfRatio, carried, power, scaled, Nat.pow_eq]

/-- The quotient has 53 bits at most, and no fewer unless the power is the least
one. -/
theorem quotient_bounds :
    scaled num / (den * 2 ^ power num den) < 2 ^ 53 ∧
      (power num den = 0 ∨ 2 ^ 52 ≤ scaled num / (den * 2 ^ power num den)) := by
  have hpower : power num den = (scaled num / den).log2 - 52 := rfl
  have hlog : scaled num / den < 2 ^ ((scaled num / den).log2 + 1) := Nat.lt_log2_self
  rw [← Nat.div_div_eq_div_mul]
  constructor
  · rw [Nat.div_lt_iff_lt_mul (Nat.two_pow_pos _), ← pow_add]
    exact hlog.trans_le (Nat.pow_le_pow_right Nat.two_pos (by omega))
  · rcases Nat.eq_zero_or_pos (power num den) with hzero | hpos
    · exact Or.inl hzero
    · have hne : scaled num / den ≠ 0 := by
        intro hzero
        rw [hzero, Nat.log2_zero] at hpower
        omega
      have hexponent : 52 + power num den = (scaled num / den).log2 := by omega
      rw [Nat.le_div_iff_mul_le (Nat.two_pow_pos _), ← pow_add, hexponent]
      exact Or.inr (Nat.log2_self_le hne)

/-- The units of the rounded fraction are a whole number of groups. -/
theorem units_carried :
    units (carried num den) =
      divNearest (scaled num) (den * 2 ^ power num den) * 2 ^ power num den := by
  obtain ⟨hhigh, hlow⟩ := quotient_bounds num den
  obtain ⟨hle, hge⟩ := divNearest_bounds (scaled num) (den * 2 ^ power num den)
  exact units_group (by omega) (by omega)

variable {den}

/-- Before it is cut off at the infinity, the magnitude is the nearest one. -/
theorem nearest_carried (h : 0 < den) :
    Nearest (fun k => (units k : ℚ)) Set.univ ((scaled num : ℚ) / den) (carried num den) := by
  have hgroup : 0 < den * 2 ^ power num den := Nat.mul_pos h (Nat.two_pow_pos _)
  have hnearest := nearest_divNearest (scaled num) hgroup
  have hgrid := hnearest.scale (show (0 : ℚ) < 2 ^ power num den by positivity)
  have hvalue : (scaled num : ℚ) / (den * 2 ^ power num den : ℕ) * 2 ^ power num den =
      scaled num / den := by
    rw [Nat.cast_mul, Nat.cast_pow, Nat.cast_ofNat, ← div_div,
      div_mul_cancel₀ _ (by positivity)]
  have hcarried : (units (carried num den) : ℚ) =
      divNearest (scaled num) (den * 2 ^ power num den) * 2 ^ power num den := by
    rw [units_carried, Nat.cast_mul, Nat.cast_pow, Nat.cast_ofNat]
  rw [hvalue] at hgrid
  -- a point off the grid lies below the least count of 53 bits, which is on it
  have hoff : ∀ k, 0 < power num den → units k < 2 ^ 52 * 2 ^ power num den →
      |(scaled num : ℚ) / den - units (carried num den)| < |(scaled num : ℚ) / den - units k| := by
    intro k hpos hlt
    have hbits := (quotient_bounds num den).2.resolve_left hpos.ne'
    have hleast : (2 : ℚ) ^ 52 * 2 ^ power num den ≤ scaled num / den := by
      have hscaled := (Nat.le_div_iff_mul_le hgroup).1 hbits
      rw [le_div_iff₀ (by exact_mod_cast h), mul_assoc, mul_comm ((2 : ℚ) ^ power num den)]
      exact_mod_cast hscaled
    have hbelow : (units k : ℚ) < 2 ^ 52 * 2 ^ power num den := by exact_mod_cast hlt
    have hcount := hgrid.near (2 ^ 52) (Set.mem_univ _)
    rw [← hcarried, Nat.cast_pow, Nat.cast_ofNat, abs_of_nonneg (sub_nonneg.2 hleast)] at hcount
    have hself := le_abs_self ((scaled num : ℚ) / den - units k)
    linarith
  constructor
  · intro k _
    rcases units_on_grid k (power num den) with ⟨count, hcount⟩ | ⟨hpos, hlt⟩
    · have hk : (units k : ℚ) = count * 2 ^ power num den := by exact_mod_cast hcount
      rw [hcarried, hk]
      exact hgrid.near count (Set.mem_univ count)
    · exact (hoff k hpos hlt).le
  · intro k _ hne htie
    rcases units_on_grid k (power num den) with ⟨count, hcount⟩ | ⟨hpos, hlt⟩
    · have hk : (units k : ℚ) = count * 2 ^ power num den := by exact_mod_cast hcount
      have hother : count ≠ divNearest (scaled num) (den * 2 ^ power num den) := by
        rintro rfl
        exact hne (units_strictMono.injective (by rw [hcount, units_carried]))
      rw [hcarried, hk] at htie
      have heven := hgrid.even count (Set.mem_univ count) hother htie
      rw [Nat.even_iff] at heven ⊢
      rw [carried]
      omega
    · exact absurd htie (hoff k hpos hlt).ne

/-- The same, counted in ones rather than in units. -/
theorem nearest_value_carried (h : 0 < den) :
    Nearest value Set.univ ((num : ℚ) / den) (carried num den) := by
  have hscale := (nearest_carried num h).scale
    (show (0 : ℚ) < (2 ^ leastExponent)⁻¹ by positivity)
  have hscaled : (scaled num : ℚ) / den * (2 ^ leastExponent)⁻¹ = num / den := by
    rw [scaled, Nat.cast_mul, Nat.cast_pow, Nat.cast_ofNat, ← div_eq_mul_inv, div_right_comm,
      mul_div_cancel_right₀ _ (by positivity)]
  rw [hscaled] at hscale
  exact hscale

end Fraction

/-! ## The threshold of the infinity -/

/-- The middle between the greatest finite number and the number that would come
next to it. -/
def threshold : ℚ := 2 ^ 1024 - 2 ^ 970

theorem value_group {power count : Nat} (hcount : count ≤ 2 ^ 53)
    (hleading : power = 0 ∨ 2 ^ 52 ≤ count) :
    value (power * 2 ^ 52 + count) = count * 2 ^ power / 2 ^ leastExponent := by
  rw [value, units_group hcount hleading, Nat.cast_mul, Nat.cast_pow, Nat.cast_ofNat]

theorem middle_value : (value (infinity - 1) + value (infinity - 1 + 1)) / 2 = threshold := by
  have hbelow : infinity - 1 = 2045 * 2 ^ 52 + (2 ^ 53 - 1) := by decide
  have habove : infinity - 1 + 1 = 2045 * 2 ^ 52 + 2 ^ 53 := by decide
  have hpower : (2 : ℚ) ^ 2045 / 2 ^ leastExponent = 2 * 2 ^ 970 := by
    rw [leastExponent, show 2045 = 971 + 1074 from rfl, pow_add,
      mul_div_cancel_right₀ _ (by positivity), pow_succ, mul_comm]
  have hnext : (2 : ℚ) ^ 1024 = 2 ^ 54 * 2 ^ 970 := by rw [← pow_add]
  rw [habove, hbelow, value_group (by decide) (by decide), value_group (by decide) (by decide),
    mul_div_assoc, mul_div_assoc, hpower, threshold, hnext]
  generalize (2 : ℚ) ^ 970 = step
  norm_num
  ring

/-! ## Patterns -/

/-- The sign bit and the magnitude make up the pattern. -/
theorem eq_of_fields {x y : Binary64} (hsign : x.isNegative = y.isNegative)
    (hmagnitude : x.magnitude = y.magnitude) : x = y := by
  have hx := x.bits.toNat_lt
  have hy := y.bits.toNat_lt
  simp only [isNegative, magnitude, Nat.pow_eq, decide_eq_decide] at hsign hmagnitude
  have hbits : x.bits = y.bits := UInt64.toNat_inj.1 (by omega)
  rcases x with ⟨bits⟩
  rcases y with ⟨bits'⟩
  exact congrArg mk hbits

theorem eq_of_magnitude_eq {x y : Binary64} (hx : x.isNegative = false)
    (hy : y.isNegative = false) (h : x.magnitude = y.magnitude) : x = y :=
  eq_of_fields (hx.trans hy.symm) h

/-- The pattern of a magnitude, without a sign. -/
theorem magnitude_mk {m : Nat} (h : m ≤ infinity) :
    (mk m.toUInt64).magnitude = m ∧ (mk m.toUInt64).isNegative = false := by
  have hinfinity : infinity = 2047 * 2 ^ 52 := by decide
  have hsize : UInt64.size = 2 ^ 64 := rfl
  have hbits : m.toUInt64.toNat = m := UInt64.toNat_ofNat_of_lt' (by omega)
  simp only [magnitude, isNegative, hbits, Nat.pow_eq, decide_eq_false_iff_not]
  omega

theorem isFinite_iff {x : Binary64} : x.isFinite = true ↔ x.magnitude < infinity := by
  simp [isFinite]

theorem magnitude_ofRatio (num den : Nat) :
    (ofRatio num den).magnitude = min infinity (carried num den) ∧
      (ofRatio num den).isNegative = false := by
  rw [← magnitudeOfRatio_eq]
  exact magnitude_mk (Nat.min_le_left ..)

/-- A number is finite if and only if it is below the threshold before rounding. -/
theorem isFinite_ofRatio_iff (num : Nat) {den : Nat} (h : 0 < den) :
    (ofRatio num den).isFinite = true ↔ (num : ℚ) / den < threshold := by
  have hodd : ¬ Even (infinity - 1) := by decide
  have hinfinity : infinity - 1 + 1 = infinity := by decide
  have hcarried := (nearest_value_carried num h).succ_le_iff value_strictMono hodd
  rw [middle_value, hinfinity] at hcarried
  rw [isFinite_iff, (magnitude_ofRatio num den).1, ← not_iff_not, not_lt, not_lt, ← hcarried]
  omega

theorem exists_toRat_eq {k : Nat} (h : k < infinity) :
    ∃ y : Binary64, y.isFinite = true ∧ y.toRat = value k := by
  obtain ⟨hmagnitude, hsign⟩ := magnitude_mk h.le
  refine ⟨mk k.toUInt64, isFinite_iff.2 ?_, ?_⟩
  · rw [hmagnitude]
    exact h
  · rw [toRat_of_nonneg hsign, hmagnitude]

/-- A finite number is nearest to `x`: no other one is nearer, and if another one
is as near, the significand is even. -/
structure IsNearest (v : Binary64) (x : ℚ) : Prop where
  isFinite : v.isFinite = true
  near : ∀ y : Binary64, y.isFinite = true → |x - v.toRat| ≤ |x - y.toRat|
  even : ∀ y : Binary64, y.isFinite = true → y.toRat ≠ v.toRat →
    |x - v.toRat| = |x - y.toRat| → Even (significand v.magnitude)

/-- Near a number that is not negative, only the magnitudes matter. -/
theorem isNearest_iff {v : Binary64} (hv : v.isNegative = false) {x : ℚ} (hx : 0 ≤ x) :
    v.IsNearest x ↔
      v.magnitude < infinity ∧ Nearest value (Set.Iio infinity) x v.magnitude := by
  have hvalue := toRat_of_nonneg hv
  constructor
  · intro h
    refine ⟨isFinite_iff.1 h.isFinite, ?_, ?_⟩
    · intro k hk
      obtain ⟨y, hy, hk⟩ := exists_toRat_eq hk
      rw [← hk, ← hvalue]
      exact h.near y hy
    · intro k hk hne htie
      obtain ⟨y, hy, hk⟩ := exists_toRat_eq hk
      rw [← hk, ← hvalue] at htie
      have hother : y.toRat ≠ v.toRat := by
        rw [hk, hvalue]
        exact value_strictMono.injective.ne hne
      exact (even_significand_iff _).1 (h.even y hy hother htie)
  · rintro ⟨hfinite, h⟩
    have hreflect : ∀ y : Binary64, |x - value y.magnitude| ≤ |x - y.toRat| := by
      intro y
      have habs := abs_abs_sub_abs_le x y.toRat
      rwa [abs_of_nonneg hx, abs_toRat] at habs
    refine ⟨isFinite_iff.2 hfinite, ?_, ?_⟩
    · intro y hy
      rw [hvalue]
      exact (h.near _ (isFinite_iff.1 hy)).trans (hreflect y)
    · intro y hy hne htie
      rw [hvalue] at hne htie
      have htie' : |x - value v.magnitude| = |x - value y.magnitude| :=
        le_antisymm (h.near _ (isFinite_iff.1 hy)) (htie ▸ hreflect y)
      refine (even_significand_iff _).2 (h.even _ (isFinite_iff.1 hy) ?_ htie')
      intro hsame
      -- the two differ by their signs only, which takes `x` to be zero, and then both are
      have hsign : y.toRat = -value v.magnitude := by
        rcases eq_or_eq_neg_of_abs_eq (abs_toRat y) with hplus | hminus
        · exact absurd (hsame ▸ hplus) hne
        · rw [hminus, hsame]
      have hpos : 0 < value v.magnitude := by
        refine lt_of_le_of_ne (value_nonneg _) fun hzero => hne ?_
        rw [hsign, ← hzero, neg_zero]
      have hzero := h.near 0 (by decide)
      rw [value_zero, sub_zero, abs_of_nonneg hx] at hzero
      rw [hsign, sub_neg_eq_add, abs_of_nonneg (add_nonneg hx hpos.le)] at htie
      linarith

/-- Only one number that is not negative is nearest. -/
theorem IsNearest.eq {v w : Binary64} {x : ℚ} (hx : 0 ≤ x) (hv : v.isNegative = false)
    (hw : w.isNegative = false) (hnv : v.IsNearest x) (hnw : w.IsNearest x) : v = w := by
  obtain ⟨hfinite, hnearest⟩ := (isNearest_iff hv hx).1 hnv
  obtain ⟨hfinite', hnearest'⟩ := (isNearest_iff hw hx).1 hnw
  exact eq_of_magnitude_eq hv hw
    (Nearest.unique value_strictMono hfinite hfinite' hnearest hnearest')

/-- Below the threshold, a fraction is rounded to the number nearest to it. -/
theorem isNearest_ofRatio (num : Nat) {den : Nat} (h : 0 < den)
    (hbelow : (num : ℚ) / den < threshold) : (ofRatio num den).IsNearest ((num : ℚ) / den) := by
  obtain ⟨hmagnitude, hsign⟩ := magnitude_ofRatio num den
  have hfinite := isFinite_iff.1 ((isFinite_ofRatio_iff num h).2 hbelow)
  have hcarried : (ofRatio num den).magnitude = carried num den := by omega
  refine (isNearest_iff hsign (by positivity)).2 ⟨hfinite, ?_⟩
  rw [hcarried]
  exact (nearest_value_carried num h).mono (Set.subset_univ _)

end SharpLexer.Binary64
