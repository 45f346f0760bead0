import SharpLexer.Proofs.RoundTrip
import SharpLexer.Proofs.SourceLine

/-!
# Documentation and the lines it stands on

A documentation comment is read up to the newline behind it, and loses one carriage return
there.  The lines of a text are cut at the newlines and lose one carriage return each.  So
a comment is what its line shows from the column of the comment on, however the line ends.

* `Text.EndsLine` lists what can stand behind a line.
* `Cursor.line_lt_of_newline` says that what is read behind a newline stands on a later
  line.
* `Cursor.doc_next` is about the documentation that one reading gives, and
  `doc_of_ofSource` about every run.
-/

namespace SharpLexer

open Trivia (ClosedGap gapText)

namespace Text

/-- The text goes on with the end of a line, or it is the end of the last line. -/
def EndsLine (text : List Char) : Prop :=
  text = [] ∨ text = ['\r'] ∨ ['\n'] <+: text ∨ ['\r', '\n'] <+: text

/-- A line without its carriage return is followed by the end of the line. -/
theorem exists_endsLine (line : List Char) {tail : List Char} (htail : ∀ c ∈ tail.head?, c = '\n') :
    ∃ back, line ++ tail = dropReturn line ++ back ∧ EndsLine back := by
  have hcases : tail = [] ∨ ['\n'] <+: tail := by
    rcases tail with _ | ⟨c, tail⟩
    · exact Or.inl rfl
    · obtain rfl : c = '\n' := htail c rfl
      exact Or.inr ⟨tail, rfl⟩
  rcases dropReturn_cases line with hline | hline
  · refine ⟨tail, by rw [← hline], ?_⟩
    rcases hcases with hnil | hnewline
    · exact Or.inl hnil
    · exact Or.inr (Or.inr (Or.inl hnewline))
  · refine ⟨'\r' :: tail, ?_, ?_⟩
    · conv_lhs => rw [hline]
      simp
    · rcases hcases with hnil | hnewline
      · exact Or.inr (Or.inl (by rw [hnil]))
      · exact Or.inr (Or.inr (Or.inr (List.cons_prefix_cons.2 ⟨rfl, hnewline⟩)))

end Text

namespace Item

/-- Only a documentation comment makes a token of its kind. -/
theorem eq_doc_of_outcome {item : Item} (hshape : item.WellFormed) {p : Position} {token : Token}
    (h : item.outcome p = .ok token) (hdoc : token.kind = .docComment) :
    ∃ text, item = doc text ∧ token = .plain .docComment (Text.dropReturn text) p := by
  rcases ok_cases hshape h with
    ⟨-, hne, -⟩ | ⟨quote, body, -, rfl⟩ | ⟨text, rfl, rfl⟩ | ⟨c, -, rfl⟩
  · exact absurd hdoc hne
  · exact absurd hdoc (by simp)
  · exact ⟨text, rfl, rfl⟩
  · exact absurd hdoc (by simp)

/-- Documentation holds no newline, and keeps its three slashes. -/
theorem doc_spec {text : List Char} (hshape : (doc text).WellFormed) :
    '\n' ∉ text ∧ ['/', '/', '/'] <+: Text.dropReturn text := by
  cases hshape with
  | @doc body hbody =>
    exact ⟨by simpa using hbody, Text.prefix_dropReturn_doc body⟩

end Item

namespace Cursor

/-- What is read behind a newline stands on a later line than what is in front of it. -/
theorem line_lt_of_newline {text : List Char} {c : Cursor} (h : c.StandsIn text)
    {front tail : List Char} (htext : text = front ++ '\n' :: tail)
    (hunread : c.unread <:+ '\n' :: tail) (hend : c.next.value.isEnd = false) :
    (Position.start.advance front).line < c.next.value.position.line := by
  obtain ⟨gap, item, back, -, hshape, hstops, hitem, hnext⟩ := exists_item_of_not_isEnd hend
  obtain ⟨before, hbefore, hplace⟩ := exists_front_of_item h hshape hitem
  obtain ⟨between, hbetween⟩ := hunread
  have hsame : before ++ c.unread = (front ++ between) ++ c.unread := by
    rw [← hbefore, htext, List.append_assoc, hbetween]
  have hfront : before = front ++ between := List.append_cancel_right hsame
  -- the newline is passed over on the way to the item, which starts with no blank
  have hnewline : '\n' ∈ between ++ gapText gap := by
    obtain ⟨d, rest, hd, hblank⟩ := Item.exists_head_of_wellFormed hshape hstops
    rw [hitem, ← List.append_assoc] at hbetween
    rcases hpassed : between ++ gapText gap with _ | ⟨e, passed⟩
    · rw [hpassed, hd] at hbetween
      obtain rfl : d = '\n' := (List.cons.inj hbetween).1
      exact absurd hblank (by decide)
    · rw [hpassed] at hbetween
      obtain rfl : e = '\n' := (List.cons.inj hbetween).1
      simp
  have hpos : 0 < (between ++ gapText gap).count '\n' := List.count_pos_iff.2 hnewline
  have hvalue : c.next.value.position = (c.position.advance (gapText gap)).right := by
    rw [hnext]
    exact Item.position_outcome item _
  rw [hvalue, hplace, hfront, List.append_assoc, Position.advance_append]
  show _ < ((Position.start.advance front).advance (between ++ gapText gap)).line
  rw [Position.line_advance (Position.start.advance front)]
  omega

/-- A reading that gives documentation has read up to a newline, or to the end of the
text. -/
theorem doc_next {text : List Char} {c : Cursor} (h : c.StandsIn text) {token : Token}
    (hvalue : c.next.value = .ok token) (hdoc : token.kind = .docComment) :
    ∃ front spelling tail, text = front ++ (spelling ++ tail) ∧
      '\n' ∉ spelling ∧ (∀ d ∈ tail.head?, d = '\n') ∧
      ['/', '/', '/'] <+: Text.dropReturn spelling ∧
      token = .plain .docComment (Text.dropReturn spelling) (Position.start.advance front).right ∧
      c.next.cursor.unread = tail := by
  have hend : c.next.value.isEnd = false := by simp [hvalue, Token.isEof, hdoc]
  obtain ⟨gap, item, tail, hgap, hshape, hstops, hunread, hnext⟩ := exists_item_of_not_isEnd hend
  obtain ⟨front, htext, hplace⟩ := exists_front_of_item h hshape hunread
  have htail := (next_of_item hgap hshape hstops hunread).2
  rw [hnext, hplace] at hvalue
  obtain ⟨spelling, rfl, rfl⟩ := Item.eq_doc_of_outcome hshape hvalue hdoc
  obtain ⟨hline, hslashes⟩ := Item.doc_spec hshape
  refine ⟨front ++ gapText gap, spelling, tail, ?_, hline, hstops, hslashes, rfl, htail⟩
  rw [htext, hunread, List.append_assoc]
  rfl

end Cursor

/-- Documentation that a run gives is what its line shows from the column of its place
on.  The end of the line stands behind it, or the end of the text, and whatever is read
later stands on a later line. -/
theorem doc_of_ofSource {source : String} {opened : Reading Unit}
    (h : Cursor.ofSource source = .ok opened) {n : Nat} {token : Token}
    (hvalue : opened.cursor.outcomeAt n = .ok token) (hdoc : token.kind = .docComment) :
    (∃ line, Text.line? source.toList token.position.line = some line ∧
        1 ≤ token.position.column ∧
        token.lexeme.toList = line.drop (token.position.column - 1)) ∧
      ['/', '/', '/'] <+: token.lexeme.toList ∧ '\n' ∉ token.lexeme.toList ∧
      (∃ front back, source.toList = front ++ (token.lexeme.toList ++ back) ∧
        token.position = Position.ofOffset source.toList front.length ∧ Text.EndsLine back) ∧
      ∀ m, n < m → (opened.cursor.outcomeAt m).isEnd = false →
        token.position.line < (opened.cursor.outcomeAt m).position.line := by
  obtain ⟨-, rfl⟩ := Cursor.ofSource_eq_ok_iff.1 h
  have hstands := Cursor.standsIn_start source.toList
  obtain ⟨front, spelling, tail, htext, hline, htail, hslashes, rfl, hunread⟩ :=
    Cursor.doc_next (Cursor.standsIn_later hstands n) hvalue hdoc
  have hlexeme := Token.toList_lexeme_plain .docComment (Text.dropReturn spelling)
    (Position.start.advance front).right
  have hplace := Position.right_advance_eq_ofOffset front (spelling ++ tail)
  rw [hlexeme]
  refine ⟨?_, hslashes, fun hmem => hline (Text.mem_of_mem_dropReturn hmem), ?_, ?_⟩
  · have hback : ∀ d ∈ tail.head?, (d != '\n') = false := by
      intro d hd
      simp [htail d hd]
    have hahead : (spelling ++ tail).takeWhile (· != '\n') = spelling :=
      takeWhile_span (forall_bne_iff.2 hline) hback
    have hne : (spelling ++ tail).takeWhile (· != '\n') ≠ [] := by
      rw [hahead]
      rintro rfl
      exact absurd hslashes (by decide)
    obtain ⟨line, hshown, hdrop⟩ := Text.exists_line_of_ahead front hne
    rw [htext]
    exact ⟨line, hshown, Nat.succ_pos _, by rw [← hahead]; exact hdrop.symm⟩
  · obtain ⟨back, hback, hends⟩ := Text.exists_endsLine spelling htail
    rw [← htext] at hplace
    exact ⟨front, back, by rw [htext, hback], hplace, hends⟩
  · intro m hm hend
    have hlater := Cursor.unread_later_suffix (Cursor.start source.toList) (Nat.succ_le_of_lt hm)
    rw [Cursor.later_succ', hunread] at hlater
    rcases tail with _ | ⟨d, tail⟩
    · have hlast := (Cursor.next_of_lastGap (Or.inl Trivia.closedGap_nil)
        (List.suffix_nil.1 hlater)).1
      rw [Cursor.outcomeAt, hlast] at hend
      exact absurd hend (by simp)
    · obtain rfl : d = '\n' := htail d rfl
      have hlt := Cursor.line_lt_of_newline (Cursor.standsIn_later hstands m)
        (by rw [htext, List.append_assoc]) hlater hend
      rw [Position.advance_append, Position.line_advance (Position.start.advance front)] at hlt
      show (Position.start.advance front).line < _
      exact Nat.lt_of_le_of_lt (Nat.le_add_right _ _) hlt

/-- Documentation with two carriage returns at the end of its line, and documentation with
one at the end of the text. -/
def returnsSource : String := "a /// b\r\r\n ///\r"

/-- The first documentation of `returnsSource` keeps one carriage return, and the second
loses its only one. -/
theorem doc_in_returnsSource :
    Cursor.ofSource returnsSource =
        .ok ⟨(), [.opened 15], Cursor.start returnsSource.toList⟩ ∧
      (∃ line, Text.line? returnsSource.toList 1 = some line ∧
        "/// b\r".toList = line.drop 2) ∧
      (∃ line, Text.line? returnsSource.toList 2 = some line ∧ "///".toList = line.drop 1) ∧
      (Cursor.start returnsSource.toList).outcomeAt 2 =
        .ok (.plain .docComment "///".toList ⟨2, 2⟩) ∧
      1 < ((Cursor.start returnsSource.toList).outcomeAt 2).position.line := by
  have hopened : Cursor.ofSource returnsSource =
      .ok ⟨(), [.opened 15], Cursor.start returnsSource.toList⟩ :=
    Cursor.ofSource_eq_ok_iff.2 ⟨by decide, rfl⟩
  have hfirst : (Cursor.start returnsSource.toList).outcomeAt 1 =
      .ok (.plain .docComment "/// b\r".toList ⟨1, 3⟩) := by
    decide +kernel
  have hsecond : (Cursor.start returnsSource.toList).outcomeAt 2 =
      .ok (.plain .docComment "///".toList ⟨2, 2⟩) := by
    decide +kernel
  obtain ⟨⟨line, hline, -, hdrop⟩, -, -, -, hbehind⟩ := doc_of_ofSource hopened hfirst rfl
  obtain ⟨⟨last, hlast, -, hdropLast⟩, -⟩ := doc_of_ofSource hopened hsecond rfl
  rw [Token.toList_lexeme_plain] at hdrop hdropLast
  have hlater := hbehind 2 (by decide) (by rw [hsecond]; rfl)
  exact ⟨hopened, ⟨line, hline, hdrop⟩, ⟨last, hlast, hdropLast⟩, hsecond, hlater⟩

end SharpLexer
