import SharpLexer.Binary64.Shortest
import SharpLexer.Proofs.Binary64.Nearest
import SharpLexer.Proofs.Gap

/-!
# Floats in decimal notation

A float is shown as the shortest decimal that reads back, in positional notation.  No two
floats are shown alike, because the search for the decimal ends on one that reads back and
the notation of a decimal tells its digits.

* `Binary64.readsBack_shortest` says that the search ends well.  The finest grid holds the
  exact value, which rounds to itself.
* `Binary64.positional_inj` is about the notation.
* `Binary64.render_eq_iff` says which patterns are shown alike.
-/

namespace SharpLexer.Binary64

/-! ## The shortest decimal reads back -/

/-- A fraction that is the value of a magnitude is not rounded. -/
theorem magnitudeOfRatio_of_value {num den magnitude : Nat} (hden : 0 < den)
    (hvalue : (num : ℚ) / den = value magnitude) (h : magnitude < infinity) :
    magnitudeOfRatio num den = magnitude := by
  have hself := (nearest_value_carried num hden).near magnitude (Set.mem_univ magnitude)
  rw [hvalue, sub_self, abs_zero, abs_nonpos_iff, sub_eq_zero] at hself
  rw [magnitudeOfRatio_eq, ← value_strictMono.injective hself, Nat.min_eq_right h.le]

theorem pow_ten_pos (n : Nat) : 0 < Nat.pow 10 n := Nat.pow_pos (by decide)

/-- The count on the finest grid is such a fraction. -/
theorem decimalUnits_div (magnitude : Nat) :
    (decimalUnits magnitude : ℚ) / (Nat.pow 10 leastExponent : Nat) = value magnitude := by
  have hbase : ∀ n : ℕ, (10 : ℚ) ^ n = 2 ^ n * 5 ^ n := by
    intro n
    rw [← mul_pow]
    norm_num
  rw [decimalUnits, Nat.pow_eq, Nat.pow_eq, Nat.cast_mul, Nat.cast_pow, Nat.cast_pow,
    Nat.cast_ofNat, Nat.cast_ofNat, hbase, mul_div_mul_right _ _ (by positivity), value]

theorem readsBack_decimalUnits {magnitude : Nat} (h : magnitude < infinity) :
    readsBack magnitude (decimalUnits magnitude) = true := by
  have hround := magnitudeOfRatio_of_value (pow_ten_pos leastExponent)
    (decimalUnits_div magnitude) h
  simp only [readsBack, hround, beq_self_eq_true]

/-- Both neighbours on a grid are tried. -/
theorem readsBack_of_onGrid {magnitude value j count : Nat}
    (h : onGrid magnitude value j = some count) : readsBack magnitude count = true := by
  have hfirst : ∀ near far,
      (if readsBack magnitude near then some near
        else if readsBack magnitude far then some far else none) = some count →
      readsBack magnitude count = true := by
    intro near far hsome
    split at hsome
    · next hnear =>
      obtain rfl := Option.some.inj hsome
      exact hnear
    · split at hsome
      · next hfar =>
        obtain rfl := Option.some.inj hsome
        exact hfar
      · simp at hsome
  unfold onGrid at h
  extract_lets step low high at h
  by_cases hside : 2 * (value - low) < step
  · rw [if_pos hside] at h
    exact hfirst low high h
  · rw [if_neg hside] at h
    exact hfirst high low h

theorem readsBack_search {magnitude value : Nat} (h : readsBack magnitude value = true)
    (j : Nat) : readsBack magnitude (search magnitude value j) = true := by
  induction j with
  | zero => exact h
  | succ j ih =>
    rw [search]
    cases hgrid : onGrid magnitude value (j + 1) with
    | none => exact ih
    | some count => exact readsBack_of_onGrid hgrid

theorem readsBack_shortest {magnitude : Nat} (h : magnitude < infinity) :
    readsBack magnitude (shortest magnitude) = true :=
  readsBack_search (readsBack_decimalUnits h) _

/-- What reads back as two magnitudes reads back as one. -/
theorem shortest_inj {a b : Nat} (ha : a < infinity) (hb : b < infinity)
    (h : shortest a = shortest b) : a = b := by
  have hreadA := beq_iff_eq.1 (readsBack_shortest ha)
  have hreadB := beq_iff_eq.1 (readsBack_shortest hb)
  rw [← hreadA, ← hreadB, h]

/-! ## Positional notation -/

theorem length_padded {places n : Nat} (hplaces : 0 < places) (h : n < Nat.pow 10 places) :
    (padded places n).length = places := by
  have hle : (Nat.toDigits 10 n).length ≤ places :=
    (Nat.length_toDigits_le_iff (by decide) hplaces).2 h
  rw [padded, List.length_append, List.length_replicate]
  omega

/-- Zeros in front do not change what digits stand for. -/
theorem ofDigitChars_padded (width n : Nat) : Nat.ofDigitChars 10 (padded width n) 0 = n := by
  rw [padded, Nat.ofDigitChars_append, Nat.ofDigitChars_replicate_zero, Nat.mul_zero,
    Nat.ofDigitChars_ten_toDigits]

theorem exists_append_dropZeros (text : List Char) :
    ∃ k, text = dropZeros text ++ List.replicate k '0' := by
  refine ⟨(text.reverse.takeWhile (· = '0')).length, ?_⟩
  have hzeros : text.reverse.takeWhile (· = '0') =
      List.replicate (text.reverse.takeWhile (· = '0')).length '0' := by
    apply List.eq_replicate_iff.2 ⟨rfl, ?_⟩
    intro c hc
    simpa using List.mem_takeWhile_imp hc
  apply List.reverse_injective
  rw [List.reverse_append, List.reverse_replicate, ← hzeros, dropZeros, List.reverse_reverse,
    List.takeWhile_append_dropWhile]

/-- Among texts of one length, the zeros at the end are told by the rest. -/
theorem eq_of_dropZeros {s t : List Char} (hlength : s.length = t.length)
    (h : dropZeros s = dropZeros t) : s = t := by
  obtain ⟨k, hk⟩ := exists_append_dropZeros s
  obtain ⟨l, hl⟩ := exists_append_dropZeros t
  rw [hk, hl, h, List.length_append, List.length_append, List.length_replicate,
    List.length_replicate, Nat.add_left_cancel_iff] at hlength
  rw [hk, hl, h, hlength]

theorem padded_inj {places m n : Nat} (hplaces : 0 < places) (hm : m < Nat.pow 10 places)
    (hn : n < Nat.pow 10 places) (h : dropZeros (padded places m) = dropZeros (padded places n)) :
    m = n := by
  have hlength : (padded places m).length = (padded places n).length := by
    rw [length_padded hplaces hm, length_padded hplaces hn]
  rw [← ofDigitChars_padded places m, eq_of_dropZeros hlength h, ofDigitChars_padded]

/-- The digits of the whole part end at the point or at the end, and the fraction stands
behind the point. -/
theorem exists_positional (count places : Nat) :
    ∃ tail, positional count places = Nat.toDigits 10 (count / Nat.pow 10 places) ++ tail ∧
      (∀ c ∈ tail.head?, c.isDigit = false) ∧
      tail.drop 1 = dropZeros (padded places (count % Nat.pow 10 places)) := by
  simp only [positional]
  split
  · next hempty => exact ⟨[], by simp, by simp, (List.isEmpty_iff.1 hempty).symm⟩
  · refine ⟨_, rfl, ?_, rfl⟩
    intro c hc
    obtain rfl : '.' = c := by simpa using hc
    rfl

theorem isDigit_of_mem_toDigits {n : Nat} : ∀ c ∈ Nat.toDigits 10 n, c.isDigit = true :=
  fun _ => Nat.isDigit_of_mem_toDigits (by decide) (by decide)

theorem positional_inj {places a b : Nat} (hplaces : 0 < places)
    (h : positional a places = positional b places) : a = b := by
  obtain ⟨tail, hshown, htail, hfraction⟩ := exists_positional a places
  obtain ⟨tail', hshown', htail', hfraction'⟩ := exists_positional b places
  rw [hshown, hshown'] at h
  obtain ⟨hwhole, rfl⟩ :=
    span_inj isDigit_of_mem_toDigits htail isDigit_of_mem_toDigits htail' h
  have hdiv : a / Nat.pow 10 places = b / Nat.pow 10 places := by
    rw [← Nat.ofDigitChars_ten_toDigits (n := a / Nat.pow 10 places), hwhole,
      Nat.ofDigitChars_ten_toDigits]
  have hmod : a % Nat.pow 10 places = b % Nat.pow 10 places :=
    padded_inj hplaces (Nat.mod_lt a (pow_ten_pos places)) (Nat.mod_lt b (pow_ten_pos places))
      (hfraction.symm.trans hfraction')
  rw [← Nat.div_add_mod a (Nat.pow 10 places), hdiv, hmod, Nat.div_add_mod]

/-! ## Signs -/

/-- A number without its sign, in positional notation. -/
def renderAbs (x : Binary64) : String :=
  if x.isFinite then String.ofList (positional (shortest x.magnitude) leastExponent) else "inf"

theorem render_of_isNaN {x : Binary64} (h : x.isNaN = true) : x.render = "NaN" := if_pos h

theorem toList_render {x : Binary64} (h : x.isNaN = false) :
    x.render.toList = (if x.isNegative then ['-'] else []) ++ x.renderAbs.toList := by
  have hnot : ¬ x.isNaN = true := by
    rw [h]
    decide
  rw [render, if_neg hnot, String.toList_append]
  congr 1
  split <;> rfl

/-- It starts with a digit or with a letter of its own. -/
theorem exists_renderAbs (x : Binary64) :
    ∃ c rest, x.renderAbs.toList = c :: rest ∧ c ≠ '-' ∧ c ≠ 'N' ∧
      (x.isFinite = true ↔ c.isDigit = true) := by
  unfold renderAbs
  split
  · next hfinite =>
    obtain ⟨tail, hshown, -, -⟩ := exists_positional (shortest x.magnitude) leastExponent
    obtain ⟨c, rest, hdigits⟩ := List.exists_cons_of_ne_nil
      (Nat.toDigits_ne_nil (b := 10)
        (n := shortest x.magnitude / Nat.pow 10 leastExponent))
    have hc : c.isDigit = true := isDigit_of_mem_toDigits c (by rw [hdigits]; simp)
    refine ⟨c, rest ++ tail, ?_, ?_, ?_, by simp [hc, hfinite]⟩
    · rw [String.toList_ofList, hshown, hdigits, List.cons_append]
    · rintro rfl
      exact absurd hc (by decide)
    · rintro rfl
      exact absurd hc (by decide)
  · next hfinite => exact ⟨'i', ['n', 'f'], rfl, by decide, by decide, by simp [hfinite]⟩

theorem magnitude_eq_of_renderAbs {x y : Binary64} (hx : x.isNaN = false) (hy : y.isNaN = false)
    (h : x.renderAbs = y.renderAbs) : x.magnitude = y.magnitude := by
  obtain ⟨c, rest, hc, -, -, hfinite⟩ := exists_renderAbs x
  obtain ⟨d, rest', hd, -, -, hfinite'⟩ := exists_renderAbs y
  obtain ⟨rfl, rfl⟩ : c = d ∧ rest = rest' := by
    rw [h, hd] at hc
    exact List.cons.inj hc.symm
  have hsame : x.isFinite = true ↔ y.isFinite = true := hfinite.trans hfinite'.symm
  by_cases hdigits : x.isFinite = true
  · have hdigits' := hsame.1 hdigits
    simp only [renderAbs, if_pos hdigits, if_pos hdigits', String.ofList_inj] at h
    exact shortest_inj (isFinite_iff.1 hdigits) (isFinite_iff.1 hdigits')
      (positional_inj (by decide) h)
  · have hdigits' := mt hsame.2 hdigits
    simp only [isNaN, decide_eq_false_iff_not] at hx hy
    simp only [isFinite_iff] at hdigits hdigits'
    omega

/-- The sign is told by the first character. -/
theorem eq_of_render {x y : Binary64} (hx : x.isNaN = false) (hy : y.isNaN = false)
    (h : x.render = y.render) : x = y := by
  obtain ⟨c, rest, hc, hminus, -, -⟩ := exists_renderAbs x
  obtain ⟨d, rest', hd, hminus', -, -⟩ := exists_renderAbs y
  have hchars : x.render.toList = y.render.toList := by rw [h]
  rw [toList_render hx, toList_render hy] at hchars
  cases hsign : x.isNegative <;> cases hsign' : y.isNegative <;>
    simp only [hsign, hsign', Bool.false_eq_true, if_false, if_true, List.nil_append,
      List.cons_append] at hchars
  · exact eq_of_fields (hsign.trans hsign'.symm)
      (magnitude_eq_of_renderAbs hx hy (String.toList_inj.1 hchars))
  · rw [hc] at hchars
    exact absurd (List.cons.inj hchars).1 hminus
  · rw [hd] at hchars
    exact absurd (List.cons.inj hchars).1.symm hminus'
  · exact eq_of_fields (hsign.trans hsign'.symm)
      (magnitude_eq_of_renderAbs hx hy (String.toList_inj.1 (List.cons.inj hchars).2))

/-- No number is shown as what stands for no number. -/
theorem render_ne_of_isNaN {x : Binary64} (h : x.isNaN = false) : x.render ≠ "NaN" := by
  intro hrender
  obtain ⟨c, rest, hc, -, hletter, -⟩ := exists_renderAbs x
  have hchars : x.render.toList = ['N', 'a', 'N'] := by
    rw [hrender]
    rfl
  rw [toList_render h, hc] at hchars
  cases hsign : x.isNegative <;>
    simp only [hsign, Bool.false_eq_true, if_false, if_true, List.nil_append,
      List.cons_append] at hchars
  · exact hletter (List.cons.inj hchars).1
  · exact absurd (List.cons.inj hchars).1 (by decide)

/-- No two numbers are shown alike, and all patterns without a number are. -/
theorem render_eq_iff {x y : Binary64} :
    x.render = y.render ↔ x = y ∨ (x.isNaN = true ∧ y.isNaN = true) := by
  constructor
  · intro h
    cases hx : x.isNaN <;> cases hy : y.isNaN
    · exact Or.inl (eq_of_render hx hy h)
    · exact absurd (h.trans (render_of_isNaN hy)) (render_ne_of_isNaN hx)
    · exact absurd (h.symm.trans (render_of_isNaN hx)) (render_ne_of_isNaN hy)
    · exact Or.inr ⟨rfl, rfl⟩
  · rintro (rfl | ⟨hx, hy⟩)
    · rfl
    · rw [render_of_isNaN hx, render_of_isNaN hy]

end SharpLexer.Binary64
