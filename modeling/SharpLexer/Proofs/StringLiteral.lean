import SharpLexer.Proofs.Place

/-!
# Strings

A string opens with one of two quotes and runs to the next quote of the same kind.
Nothing between them has a meaning: newlines, the other quote, backslashes and comments
stand for themselves.

* `Cursor.outcomeAt_of_quoted` and `Cursor.later_of_quoted` are about a string that is
  closed, and `Cursor.outcomeAt_of_openQuoted` about one that is not.
* `string_of_ofSource` puts these together for every run.
-/

namespace SharpLexer

open Trivia (ClosedGap gapText)

theorem Item.text_quoted_append (quote : Char) (body back : List Char) :
    (Item.quoted quote body).text ++ back = quote :: (body ++ quote :: back) := by
  simp [Item.text]

namespace Cursor

variable {source : String} {opened : Reading Unit} (h : ofSource source = .ok opened) (n : Nat)
  {gap : List Trivia} (hgap : ClosedGap gap) {quote : Char} (hquote : Item.isQuote quote = true)
  {body : List Char} (hbody : quote ∉ body)
include h hgap hquote hbody

section Quoted

variable {back : List Char}
  (hunread : (opened.cursor.later n).unread = gapText gap ++ quote :: (body ++ quote :: back))
include hunread

/-- A closed string is a token at its first quote. -/
theorem outcomeAt_of_quoted :
    opened.cursor.outcomeAt n =
      .ok (.plain .stringLiteral body (Position.ofOffset source.toList
        (source.toList.length - (quote :: (body ++ quote :: back)).length))) := by
  rw [← Item.text_quoted_append] at hunread
  obtain ⟨hvalue, -⟩ := outcomeAt_of_item h n hgap (.quoted hquote hbody) trivial hunread
  rw [Item.text_quoted_append] at hvalue
  exact hvalue

/-- It leaves the cursor on its last quote, with the whole text behind that ahead. -/
theorem later_of_quoted :
    opened.cursor.later (n + 1) =
      within quote back
        (Position.ofOffset source.toList (source.toList.length - back.length - 1)) := by
  have hlast : (Item.quoted quote body).text.getLast? = some quote := by
    simp [Item.text, List.getLast?_cons]
  have hline : quote ≠ '\n' := by
    rintro rfl
    exact absurd hquote (by decide)
  rw [← Item.text_quoted_append] at hunread
  exact later_of_item h n hgap (.quoted hquote hbody) trivial hunread rfl hlast hline

end Quoted

/-- A string without its last quote is an error at the first one, and nothing but the end
mark comes behind it. -/
theorem outcomeAt_of_openQuoted
    (hunread : (opened.cursor.later n).unread = gapText gap ++ quote :: body) :
    opened.cursor.outcomeAt n =
        .error ⟨.unterminatedString quote,
          Position.ofOffset source.toList (source.toList.length - (quote :: body).length)⟩ ∧
      ∀ m, opened.cursor.outcomeAt (n + 1 + m) =
        .ok (.eof (Position.ofOffset source.toList source.toList.length)) :=
  outcomeAt_of_isOpen h n hgap (.openQuoted hquote hbody) rfl hunread

end Cursor

/-- Wherever a run comes to a quote behind a gap, the text up to the next quote of its
kind is the string, unchanged, and reading goes on right behind that quote.  Without
such a quote, the string is an error and the rest of the text is lost. -/
theorem string_of_ofSource {source : String} {opened : Reading Unit}
    (h : Cursor.ofSource source = .ok opened) (n : Nat) {gap : List Trivia}
    (hgap : ClosedGap gap) {quote : Char} {rest : List Char}
    (hquote : Item.isQuote quote = true)
    (hunread : (opened.cursor.later n).unread = gapText gap ++ quote :: rest) :
    let place := Position.ofOffset source.toList
      (source.toList.length - (quote :: rest).length)
    (quote ∈ rest → ∃ body back, rest = body ++ quote :: back ∧ quote ∉ body ∧
        opened.cursor.outcomeAt n = .ok ⟨.stringLiteral, String.ofList body, place, none⟩ ∧
        opened.cursor.later (n + 1) =
          .within quote back
            (Position.ofOffset source.toList (source.toList.length - back.length - 1))) ∧
      (quote ∉ rest →
        opened.cursor.outcomeAt n = .error ⟨.unterminatedString quote, place⟩ ∧
        ∀ m, opened.cursor.outcomeAt (n + 1 + m) =
          .ok (.eof (Position.ofOffset source.toList source.toList.length))) := by
  refine ⟨?_, ?_⟩
  · intro hmem
    obtain ⟨body, back, rfl, hbody⟩ := List.eq_append_cons_of_mem hmem
    exact ⟨body, back, rfl, hbody, Cursor.outcomeAt_of_quoted h n hgap hquote hbody hunread,
      Cursor.later_of_quoted h n hgap hquote hbody hunread⟩
  · intro hnot
    exact Cursor.outcomeAt_of_openQuoted h n hgap hquote hnot hunread

/-- A string with the marks of comments, a newline and the other quote in it, and a string
that is opened by the last character. -/
def markedStringSource : String := "/* ' */'/*\n\"\\'\""

/-- The string of `markedStringSource` holds its marks, and its last quote opens a string
without an end. -/
theorem string_in_markedStringSource :
    Cursor.ofSource markedStringSource =
        .ok ⟨(), [.opened 15], Cursor.start markedStringSource.toList⟩ ∧
      (Cursor.start markedStringSource.toList).outcomeAt 0 =
        .ok ⟨.stringLiteral, "/*\n\"\\", ⟨1, 8⟩, none⟩ ∧
      (Cursor.start markedStringSource.toList).outcomeAt 1 =
        .error ⟨.unterminatedString '"', ⟨2, 4⟩⟩ ∧
      ∀ m, (Cursor.start markedStringSource.toList).outcomeAt (2 + m) = .ok (.eof ⟨2, 5⟩) := by
  have hopened : Cursor.ofSource markedStringSource =
      .ok ⟨(), [.opened 15], Cursor.start markedStringSource.toList⟩ :=
    Cursor.ofSource_eq_ok_iff.2 ⟨by decide, rfl⟩
  have hgap : ClosedGap [.block [' ', '\'', ' ']] := by
    rw [Trivia.closedGap_cons]
    exact ⟨by simp only [Trivia.WellFormed]; decide, rfl, Trivia.closedGap_nil⟩
  have hunread : ((Cursor.start markedStringSource.toList).later 0).unread =
      gapText [.block [' ', '\'', ' ']] ++ '\'' :: "/*\n\"\\'\"".toList := by
    decide
  have hlast : ((Cursor.start markedStringSource.toList).later 1).unread =
      gapText [] ++ '"' :: [] := by
    decide +kernel
  obtain ⟨body, back, hrest, hbody, hvalue, -⟩ :=
    (string_of_ofSource hopened 0 hgap (by decide) hunread).1 (by decide)
  have hclose : ∀ c ∈ ('\'' :: back).head?, (c != '\'') = false := by simp
  have htake := takeWhile_span (forall_bne_iff.2 hbody) hclose
  rw [← hrest] at htake
  obtain ⟨herror, hmarks⟩ :=
    (string_of_ofSource hopened 1 Trivia.closedGap_nil (by decide) hlast).2 (by simp)
  refine ⟨hopened, ?_, ?_, ?_⟩
  · rw [hvalue, ← htake]
    decide +kernel
  · rw [herror]
    decide +kernel
  · intro m
    rw [hmarks m]
    decide +kernel

end SharpLexer
