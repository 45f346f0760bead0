import Mathlib.Data.Nat.Digits.Lemmas
import SharpLexer.Proofs.Binary64.Nearest
import SharpLexer.Proofs.Numeral

/-!
# Numerals with a point

A numeral with one point stands for a rational number: its digits in front of the
point count ones, tens and so on, and those behind it tenths, hundredths and so on.
A reader rounds that number once, from its exact value, however many digits there
are.

* `Number.exactValue` is the number that a numeral stands for, and
  `Number.exactValue_eq` says that the reader divides two whole numbers for it.
* `Number.read_of_point` says what is read of a numeral with one point.
* `float_of_ofSource` says so wherever a run comes to one.
-/

namespace SharpLexer

open Trivia (ClosedGap gapText)

namespace Number

/-! ## The exact value -/

/-- The number that a numeral with a point stands for.  Underscores count for
nothing. -/
def exactValue (literal : List Char) : ℚ :=
  let whole := literal.takeWhile (· != '.')
  let fraction := (literal.dropWhile (· != '.')).drop 1
  wholeValue whole + wholeValue fraction / 10 ^ (fraction.filter (· != '_')).length

theorem decimal_append (front back : List Char) :
    decimal (front ++ back) = decimal front * 10 ^ back.length + decimal back := by
  simp only [decimal_eq_ofDigits, List.reverse_append, List.map_append, Nat.ofDigits_append,
    List.length_map, List.length_reverse]
  ring

/-- The one point of a numeral divides it into two parts without a point. -/
theorem exists_point {literal : List Char} (hpoints : points literal = 1) :
    ∃ whole fraction, literal = whole ++ '.' :: fraction ∧ '.' ∉ whole ∧
      points whole = 0 ∧ points fraction = 0 := by
  have hmem : '.' ∈ literal := List.count_pos_iff.1 (by rw [points] at hpoints; omega)
  obtain ⟨whole, fraction, rfl, hwhole⟩ := List.eq_append_cons_of_mem hmem
  simp only [points, List.count_append, List.count_cons_self] at hpoints
  exact ⟨whole, fraction, rfl, hwhole, List.count_eq_zero.2 hwhole, by rw [points]; omega⟩

/-- The reader divides the number of all digits by a power of ten. -/
theorem exactValue_eq {literal : List Char} (hliteral : ∀ c ∈ literal, continues c = true)
    (hpoints : points literal = 1) :
    exactValue literal = (decimal (digits literal) : ℚ) / (Nat.pow 10 (places literal) : ℕ) := by
  obtain ⟨whole, fraction, rfl, hwhole, hnone, hnone'⟩ := exists_point hpoints
  have hfront : ∀ c ∈ whole, (c != '.') = true := forall_bne_iff.2 hwhole
  have hback : ∀ c ∈ ('.' :: fraction).head?, (c != '.') = false := by simp
  have hpoint : digits ('.' :: fraction) = digits fraction := rfl
  have hdigits : digits (whole ++ '.' :: fraction) = digits whole ++ digits fraction := by
    rw [← hpoint]
    exact List.filter_append ..
  have hwholeValue : decimal (digits whole) = wholeValue whole :=
    decimal_digits (fun c hc => hliteral c (by simp [hc])) hnone
  have hfraction : ∀ c ∈ fraction, continues c = true := fun c hc => hliteral c (by simp [hc])
  have hfractionValue : decimal (digits fraction) = wholeValue fraction :=
    decimal_digits hfraction hnone'
  have hlength : (digits fraction).length = (fraction.filter (· != '_')).length := by
    rw [digits_eq_filter hfraction hnone']
  rw [exactValue, places, takeWhile_span hfront hback, dropWhile_span hfront hback, hpoint,
    List.drop_succ_cons, List.drop_zero, hdigits, decimal_append, hwholeValue, hfractionValue,
    hlength, Nat.pow_eq]
  push_cast
  rw [add_div, mul_div_cancel_right₀ _ (by positivity)]

/-- A numeral with one point is rounded from its exact value, and refused where
that value is past the greatest number. -/
theorem read_of_point {literal : List Char} (hliteral : ∀ c ∈ literal, continues c = true)
    (hpoints : points literal = 1) :
    0 ≤ exactValue literal ∧
      (Binary64.threshold ≤ exactValue literal →
        read literal = .error (.numberOutOfRange (String.ofList literal))) ∧
      (exactValue literal < Binary64.threshold →
        ∃ v : Binary64, v.isNegative = false ∧ v.IsNearest (exactValue literal) ∧
          read literal = .ok (.float v)) := by
  have hden : 0 < Nat.pow 10 (places literal) := Nat.pow_pos (by decide)
  have hzero : points literal ≠ 0 := by omega
  have hfinite := Binary64.isFinite_ofRatio_iff (decimal (digits literal)) hden
  have hnearest := Binary64.isNearest_ofRatio (decimal (digits literal)) hden
  have hsign := (Binary64.magnitude_ofRatio (decimal (digits literal))
    (Nat.pow 10 (places literal))).2
  rw [← exactValue_eq hliteral hpoints] at hfinite hnearest
  refine ⟨?_, ?_, ?_⟩
  · rw [exactValue_eq hliteral hpoints]
    positivity
  · intro hle
    have hnot := mt hfinite.1 hle.not_gt
    simp only [read, if_neg hzero, if_pos hpoints, if_neg hnot]
  · intro hlt
    refine ⟨_, hsign, hnearest hlt, ?_⟩
    simp only [read, if_neg hzero, if_pos hpoints, if_pos (hfinite.2 hlt)]

end Number

/-- Wherever a run comes to a digit behind a gap, the numeral from there on is read. -/
theorem Cursor.outcomeAt_of_digit {source : String} {opened : Reading Unit}
    (h : ofSource source = .ok opened) (n : Nat) {gap : List Trivia} (hgap : ClosedGap gap)
    {first : Char} {rest : List Char} (hfirst : first.isDigit = true)
    (hunread : (opened.cursor.later n).unread = gapText gap ++ first :: rest) :
    opened.cursor.outcomeAt n =
      (Item.number (Number.ahead (first :: rest))).outcome
        (Position.ofOffset source.toList (source.toList.length - (first :: rest).length)) := by
  have htext : (Item.number (Number.ahead (first :: rest))).text ++
      (first :: rest).dropWhile Number.continues = first :: rest :=
    Number.ahead_append_dropWhile (first :: rest)
  have hstops : (Item.number (Number.ahead (first :: rest))).Stops
      ((first :: rest).dropWhile Number.continues) :=
    head?_dropWhile_span Number.continues (first :: rest)
  rw [← htext] at hunread
  have hvalue := (outcomeAt_of_item h n hgap (Number.wellFormed_ahead hfirst rest) hstops
    hunread).1
  rw [htext] at hvalue
  exact hvalue

/-- Wherever a run comes to a numeral with one point behind a gap, its exact value
decides.  From the middle between the greatest number and `2 ^ 1024` on, the numeral
is out of range.  Below, it is a float, and the one number without a sign that is
nearest to the exact value. -/
theorem float_of_ofSource {source : String} {opened : Reading Unit}
    (h : Cursor.ofSource source = .ok opened) (n : Nat) {gap : List Trivia}
    (hgap : ClosedGap gap) {first : Char} {rest : List Char} (hfirst : first.isDigit = true)
    (hunread : (opened.cursor.later n).unread = gapText gap ++ first :: rest)
    (hpoints : Number.points (Number.ahead (first :: rest)) = 1) :
    let literal := Number.ahead (first :: rest)
    let x := Number.exactValue literal
    let place := Position.ofOffset source.toList
      (source.toList.length - (first :: rest).length)
    (opened.cursor.outcomeAt n = .error ⟨.numberOutOfRange (String.ofList literal), place⟩ ↔
        2 ^ 1024 - 2 ^ 970 ≤ x) ∧
      (x < 2 ^ 1024 - 2 ^ 970 →
        ∃ v : Binary64, v.isNegative = false ∧ v.IsNearest x ∧
          (∀ w : Binary64, w.isNegative = false → w.IsNearest x → w = v) ∧
          opened.cursor.outcomeAt n =
            .ok ⟨.number, String.ofList literal, place, some (.float v)⟩) := by
  intro literal x place
  have hthreshold : (2 : ℚ) ^ 1024 - 2 ^ 970 = Binary64.threshold := rfl
  have hvalue := Cursor.outcomeAt_of_digit h n hgap hfirst hunread
  obtain ⟨hnonneg, hover, hbelow⟩ := Number.read_of_point Number.continues_of_mem_ahead hpoints
  have hfloat : x < Binary64.threshold →
      ∃ v : Binary64, v.isNegative = false ∧ v.IsNearest x ∧
        opened.cursor.outcomeAt n =
          .ok ⟨.number, String.ofList literal, place, some (.float v)⟩ := by
    intro hlt
    obtain ⟨v, hsign, hnearest, hread⟩ := hbelow hlt
    refine ⟨v, hsign, hnearest, ?_⟩
    rw [hvalue, Item.outcome, hread]
    rfl
  rw [hthreshold]
  refine ⟨⟨?_, ?_⟩, ?_⟩
  · intro herror
    by_contra hnot
    obtain ⟨v, -, -, hok⟩ := hfloat (not_le.1 hnot)
    rw [herror] at hok
    exact absurd hok (by simp)
  · intro hle
    rw [hvalue, Item.outcome, hover hle]
  · intro hlt
    obtain ⟨v, hsign, hnearest, hok⟩ := hfloat hlt
    exact ⟨v, hsign, hnearest,
      fun w hw hnear => Binary64.IsNearest.eq hnonneg hw hsign hnear hnearest, hok⟩

/-- A float in the middle between two numbers, which are `2 ^ 53` and the next one. -/
def middleSource : String := "// 2 ^ 53 + 1\n9_007199254740993._0;"

/-- The float of `middleSource` goes down to `2 ^ 53`, whose significand is even. -/
theorem float_of_middleSource :
    Cursor.ofSource middleSource = .ok ⟨(), [.opened 35], Cursor.start middleSource.toList⟩ ∧
      (⟨0x4340000000000000⟩ : Binary64).IsNearest 9007199254740993 ∧
      (Cursor.start middleSource.toList).outcomeAt 0 =
        .ok ⟨.number, "9_007199254740993._0", ⟨2, 1⟩, some (.float ⟨0x4340000000000000⟩)⟩ := by
  have hopened : Cursor.ofSource middleSource =
      .ok ⟨(), [.opened 35], Cursor.start middleSource.toList⟩ :=
    Cursor.ofSource_eq_ok_iff.2 ⟨by decide, rfl⟩
  have hgap : ClosedGap [.line " 2 ^ 53 + 1".toList true] := by
    rw [Trivia.closedGap_cons]
    exact ⟨by simp [Trivia.WellFormed], rfl, Trivia.closedGap_nil⟩
  have hunread : ((Cursor.start middleSource.toList).later 0).unread =
      gapText [.line " 2 ^ 53 + 1".toList true] ++ '9' :: "_007199254740993._0;".toList := by
    decide
  have hexact : Number.exactValue (Number.ahead ('9' :: "_007199254740993._0;".toList)) =
      9007199254740993 := by
    decide +kernel
  obtain ⟨-, hbelow⟩ := float_of_ofSource hopened 0 hgap (by decide) hunread (by decide +kernel)
  rw [hexact] at hbelow
  obtain ⟨v, -, hnearest, -, hvalue⟩ := hbelow (by decide +kernel)
  have hread : (Cursor.start middleSource.toList).outcomeAt 0 =
      .ok ⟨.number, "9_007199254740993._0", ⟨2, 1⟩, some (.float ⟨0x4340000000000000⟩)⟩ := by
    decide +kernel
  rw [hread, Except.ok.injEq, Token.mk.injEq] at hvalue
  obtain rfl : (⟨0x4340000000000000⟩ : Binary64) = v := by simpa using hvalue.2.2.2
  exact ⟨hopened, hnearest, hread⟩

end SharpLexer
