import Mathlib.Data.Nat.Digits.Defs
import SharpLexer.Proofs.Place

/-!
# Numerals

Where a digit stands, a reader takes the longest run of digits, underscores
and points for a number.  The points tell what the run is.  With none it is
an integer, whose value is that of its digits in base ten, as long as 64 bits
can hold it.  With one it is a float, and with more it is no number.

* `Number.decimal_eq_ofDigits` compares the value that is computed with the
  value of a list of digits.
* `Number.read_cases` says what is read of a numeral, by the count of its
  points.
* `numeral_of_ofSource` says where a numeral is read and what is left behind
  it, for every cursor of every run.
-/

namespace SharpLexer

open Trivia (ClosedGap gapText)

namespace Number

/-! ## The value of an integer -/

/-- The value of a decimal digit. -/
def digitValue (c : Char) : Nat := c.toNat - '0'.toNat

/-- The value of a row of digits in base ten, underscores apart. -/
def wholeValue (literal : List Char) : Nat :=
  Nat.ofDigits 10 ((literal.filter (· != '_')).reverse.map digitValue)

theorem decimal_eq_ofDigits (digits : List Char) :
    decimal digits = Nat.ofDigits 10 (digits.reverse.map digitValue) := by
  induction digits using List.reverseRecOn with
  | nil => rfl
  | append_singleton front c ih =>
    have hstep : decimal (front ++ [c]) = 10 * decimal front + digitValue c :=
      List.foldl_append
    rw [hstep, ih, List.reverse_concat, List.map_cons, Nat.ofDigits_cons]
    simp [Nat.add_comm]

/-- Without a point, what is not a digit is an underscore. -/
theorem digits_eq_filter {literal : List Char} (hliteral : ∀ c ∈ literal, continues c = true)
    (hpoints : points literal = 0) : digits literal = literal.filter (· != '_') := by
  have hpoint : '.' ∉ literal := List.count_eq_zero.1 hpoints
  refine List.filter_congr fun c hc => ?_
  have hne : c ≠ '.' := fun heq => hpoint (heq ▸ hc)
  have hclass := hliteral c hc
  simp only [continues, hne, decide_false, Bool.or_false, Bool.or_eq_true,
    decide_eq_true_eq] at hclass
  rcases hclass with hdigit | rfl
  · have hunder : c ≠ '_' := by
      rintro rfl
      exact absurd hdigit (by decide)
    simp [hdigit, hunder]
  · decide

theorem decimal_digits {literal : List Char} (hliteral : ∀ c ∈ literal, continues c = true)
    (hpoints : points literal = 0) : decimal (digits literal) = wholeValue literal := by
  rw [digits_eq_filter hliteral hpoints, decimal_eq_ofDigits, wholeValue]

/-- What is read of a numeral, by the count of its points. -/
theorem read_cases {literal : List Char} (hliteral : ∀ c ∈ literal, continues c = true) :
    (points literal = 0 → wholeValue literal < Nat.pow 2 63 →
        ∃ v : Int64, v.toInt = wholeValue literal ∧ read literal = .ok (.int v)) ∧
      (points literal = 0 → Nat.pow 2 63 ≤ wholeValue literal →
        read literal = .error (.numberOutOfRange (String.ofList literal))) ∧
      (points literal = 1 →
        (∃ x, read literal = .ok (.float x)) ∨
          read literal = .error (.numberOutOfRange (String.ofList literal))) ∧
      (2 ≤ points literal →
        read literal = .error (.malformedNumber (String.ofList literal))) := by
  refine ⟨?_, ?_, ?_, ?_⟩
  · intro hpoints hvalue
    refine ⟨Int64.ofNat (wholeValue literal), Int64.toInt_ofNat_of_lt hvalue, ?_⟩
    simp only [read, decimal_digits hliteral hpoints, if_pos hpoints, if_pos hvalue]
  · intro hpoints hvalue
    have hnot : ¬ wholeValue literal < Nat.pow 2 63 := Nat.not_lt.2 hvalue
    simp only [read, decimal_digits hliteral hpoints, if_pos hpoints, if_neg hnot]
  · intro hpoints
    have hne : points literal ≠ 0 := by omega
    simp only [read, if_neg hne, if_pos hpoints]
    split
    · exact Or.inl ⟨_, rfl⟩
    · exact Or.inr rfl
  · intro hpoints
    have hne : points literal ≠ 0 := by omega
    have hnot : points literal ≠ 1 := by omega
    simp only [read, if_neg hne, if_neg hnot]

/-- No character of a numeral is a newline. -/
theorem ne_newline_of_continues {c : Char} (h : continues c = true) : c ≠ '\n' := by
  rintro rfl
  exact absurd h (by decide)

/-! ## Reading a numeral -/

/-- The characters of the numeral at the head of a text: the longest run of
those that go on with one. -/
def ahead (text : List Char) : List Char := text.takeWhile continues

theorem ahead_append_dropWhile (text : List Char) :
    ahead text ++ text.dropWhile continues = text :=
  List.takeWhile_append_dropWhile

/-- What stands where a digit does is a number. -/
theorem wellFormed_ahead {first : Char} (hfirst : first.isDigit = true) (rest : List Char) :
    (Item.number (ahead (first :: rest))).WellFormed := by
  have hcontinues : continues first = true := by simp [continues, hfirst]
  rw [ahead, List.takeWhile_cons_of_pos hcontinues]
  exact .number hfirst fun _ => List.mem_takeWhile_imp

theorem continues_of_mem_ahead {text : List Char} : ∀ c ∈ ahead text, continues c = true :=
  fun _ => List.mem_takeWhile_imp

end Number

/-- Wherever a run comes to a digit behind a gap, the run of digits,
underscores and points from there on is a number.  Without a point it is an
integer if 64 bits can hold its value, with one it is a float if that is
finite, and with more it is malformed.  All of these name the place of the
digit and leave the cursor on the last character of the run. -/
theorem numeral_of_ofSource {source : String} {opened : Reading Unit}
    (h : Cursor.ofSource source = .ok opened) (n : Nat) {gap : List Trivia}
    (hgap : ClosedGap gap) {first : Char} {rest : List Char} (hfirst : first.isDigit = true)
    (hunread : (opened.cursor.later n).unread = gapText gap ++ first :: rest) :
    let literal := Number.ahead (first :: rest)
    let offset := source.toList.length - (first :: rest).length
    let place := Position.ofOffset source.toList offset
    (Number.points literal = 0 → Number.wholeValue literal < Nat.pow 2 63 →
        ∃ v : Int64, v.toInt = Number.wholeValue literal ∧
          opened.cursor.outcomeAt n =
            .ok ⟨.number, String.ofList literal, place, some (.int v)⟩) ∧
      (Number.points literal = 0 → Nat.pow 2 63 ≤ Number.wholeValue literal →
        opened.cursor.outcomeAt n =
          .error ⟨.numberOutOfRange (String.ofList literal), place⟩) ∧
      (Number.points literal = 1 →
        (∃ x, opened.cursor.outcomeAt n =
            .ok ⟨.number, String.ofList literal, place, some (.float x)⟩) ∨
          opened.cursor.outcomeAt n =
            .error ⟨.numberOutOfRange (String.ofList literal), place⟩) ∧
      (2 ≤ Number.points literal →
        opened.cursor.outcomeAt n =
          .error ⟨.malformedNumber (String.ofList literal), place⟩) ∧
      ∃ last, literal.getLast? = some last ∧
        opened.cursor.later (n + 1) =
          .within last ((first :: rest).drop literal.length)
            (Position.ofOffset source.toList (offset + literal.length - 1)) := by
  intro literal offset place
  obtain ⟨-, rfl⟩ := Cursor.ofSource_eq_ok_iff.1 h
  have hstands := Cursor.standsIn_later (Cursor.standsIn_start source.toList) n
  have hsplit := Number.ahead_append_dropWhile (first :: rest)
  have hdrop : (first :: rest).drop literal.length =
      (first :: rest).dropWhile Number.continues := by
    conv_lhs => rw [← hsplit, List.drop_left]
  have hshape := Number.wellFormed_ahead hfirst rest
  have hstops : (Item.number literal).Stops ((first :: rest).dropWhile Number.continues) :=
    head?_dropWhile_span Number.continues (first :: rest)
  have hahead : ((Cursor.start source.toList).later n).unread =
      gapText gap ++ (literal ++ (first :: rest).dropWhile Number.continues) := by
    rw [hsplit]
    exact hunread
  have hoffset : offset + (literal ++ (first :: rest).dropWhile Number.continues).length =
      source.toList.length := by
    obtain ⟨front, htext, -⟩ := Cursor.exists_front_of_standsIn hstands
    have hlength := congrArg List.length htext
    rw [hunread, List.length_append, List.length_append] at hlength
    rw [hsplit]
    omega
  have hvalue : (Cursor.start source.toList).outcomeAt n = (Item.number literal).outcome place :=
    Cursor.value_of_item hstands hgap hshape hstops hahead hoffset
  have hliteral : ∀ c ∈ literal, Number.continues c = true := Number.continues_of_mem_ahead
  obtain ⟨hint, hrange, hfloat, hmalformed⟩ := Number.read_cases hliteral
  rw [hvalue, Item.outcome]
  refine ⟨?_, ?_, ?_, ?_, ?_⟩
  · intro hpoints hlt
    obtain ⟨v, hv, hread⟩ := hint hpoints hlt
    exact ⟨v, hv, by rw [hread]; rfl⟩
  · intro hpoints hle
    rw [hrange hpoints hle]
  · intro hpoints
    rcases hfloat hpoints with ⟨x, hread⟩ | hread
    · exact Or.inl ⟨x, by rw [hread]; rfl⟩
    · exact Or.inr (by rw [hread])
  · intro hpoints
    rw [hmalformed hpoints]
  · have hne : literal ≠ [] := Item.text_ne_nil_of_wellFormed hshape
    obtain ⟨last, hlast⟩ := Option.ne_none_iff_exists'.1 (mt List.getLast?_eq_none_iff.1 hne)
    have hline : last ≠ '\n' := Number.ne_newline_of_continues
      (Number.continues_of_mem_ahead last (List.mem_of_getLast? hlast))
    refine ⟨last, hlast, ?_⟩
    rw [Cursor.later_succ', hdrop]
    exact Cursor.cursor_of_item hstands hgap hshape rfl hstops hahead hoffset hlast hline

/-- The greatest integer, with a zero and an underscore more than it needs,
and the least one that is too great. -/
def greatestSource : String := "/**/09_223372036854775807;9223372036854775808"

/-- The first numeral of `greatestSource` is an integer, and the reader stands
on its last digit. -/
theorem numeral_of_greatestSource :
    Cursor.ofSource greatestSource =
        .ok ⟨(), [.opened 45], Cursor.start greatestSource.toList⟩ ∧
      (∃ v : Int64, v.toInt = 9223372036854775807 ∧
        (Cursor.start greatestSource.toList).outcomeAt 0 =
          .ok ⟨.number, "09_223372036854775807", ⟨1, 5⟩, some (.int v)⟩) ∧
      (Cursor.start greatestSource.toList).later 1 =
        .within '7' ";9223372036854775808".toList ⟨1, 25⟩ := by
  have hopened : Cursor.ofSource greatestSource =
      .ok ⟨(), [.opened 45], Cursor.start greatestSource.toList⟩ :=
    Cursor.ofSource_eq_ok_iff.2 ⟨by decide, rfl⟩
  have hgap : ClosedGap [.block []] := by
    rw [Trivia.closedGap_cons]
    exact ⟨by simp [Trivia.WellFormed], rfl, Trivia.closedGap_nil⟩
  have hunread : ((Cursor.start greatestSource.toList).later 0).unread =
      gapText [.block []] ++ '0' :: "9_223372036854775807;9223372036854775808".toList := by
    decide
  obtain ⟨hint, -, -, -, last, hlast, hcursor⟩ :=
    numeral_of_ofSource hopened 0 hgap (by decide) hunread
  obtain ⟨v, hv, hvalue⟩ := hint (by decide) (by decide +kernel)
  refine ⟨hopened, ⟨v, ?_, ?_⟩, ?_⟩
  · rw [hv]
    decide +kernel
  · rw [hvalue, Except.ok.injEq, Token.mk.injEq]
    exact ⟨rfl, by decide +kernel, by decide +kernel, rfl⟩
  · rw [hcursor]
    obtain rfl : last = '7' := by
      simpa [Number.ahead, Number.continues] using hlast.symm
    decide +kernel

end SharpLexer
