import SharpLexer.Proofs.Lines
import SharpLexer.Proofs.Lookahead
import SharpLexer.Proofs.Place
import SharpLexer.Proofs.Resumption
import SharpLexer.Proofs.Tokenize

/-!
# Texts put together at a newline

A newline ends whatever the text in front of it ends: an item, a line
comment, or nothing.  So the tokens of two texts with a newline between them
are those of the first, and behind them those of the second, further down by
the lines of the first.

* `Position.down` moves a place down.  `Position.behind_line_start` says that
  a text which starts on a new line is only moved down.
* `Cursor.Continued` relates a cursor in a text with one in a text that goes
  on behind a newline.  `Cursor.continued_next` is one reading in front of the
  newline, `Cursor.continued_last` the reading that comes to it, and
  `Cursor.tokens_of_continued` all of them.
* `tokenize_newline` is the statement for two texts.
-/

namespace SharpLexer

open Trivia (ClosedGap LastGap gapText)

/-! ## Further down -/

/-- The place in the same column, so many lines further down. -/
def Position.down (lines : Nat) (p : Position) : Position := ⟨p.line + lines, p.column⟩

/-- A token so many lines further down. -/
def Token.down (lines : Nat) (token : Token) : Token :=
  { token with position := token.position.down lines }

/-- An error so many lines further down. -/
def Error.down (lines : Nat) (error : Error) : Error :=
  { error with position := error.position.down lines }

namespace Position

theorem behind_line_start (lines : Nat) (p : Position) :
    behind ⟨lines + 1, 0⟩ p = p.down lines := by
  simp only [behind, down, Nat.zero_add, ite_self, mk.injEq, and_true]
  omega

/-- Behind a newline stands the start of a line. -/
theorem advance_start_newline (text : List Char) :
    start.advance (text ++ ['\n']) = ⟨1 + text.count '\n' + 1, 0⟩ := by
  rw [advance_append, advance_cons, advance_nil, step_newline, line_advance]
  rfl

end Position

theorem Outcome.behind_line_start (lines : Nat) (outcome : Outcome) :
    outcome.behind ⟨lines + 1, 0⟩ =
      (outcome.map (Token.down lines)).mapError (Error.down lines) := by
  cases outcome with
  | ok token =>
    simp only [behind, Position.behind_line_start]
    rfl
  | error error =>
    simp only [behind, Position.behind_line_start]
    rfl

theorem Outcome.strict_behind (base : Position) (outcome : Outcome) :
    (outcome.behind base).strict = outcome.strict.behind base := by
  cases outcome with
  | ok token =>
    simp only [behind, strict]
    split <;> rfl
  | error error => rfl

/-! ## A text that goes on -/

/-- A gap at the end of a text is a closed one with a newline behind it. -/
theorem Trivia.exists_closedGap_newline {gap : List Trivia} (hgap : LastGap gap) :
    ∃ closed, ClosedGap closed ∧ gapText closed = gapText gap ++ ['\n'] := by
  have hnewline : ClosedGap (['\n'].map blank) := closedGap_blanks (by decide)
  rcases hgap with hgap | ⟨front, body, rfl, hfront, hbody⟩
  · refine ⟨gap ++ [blank '\n'], List.forall_mem_append.2 ⟨hgap, hnewline⟩, ?_⟩
    rw [gapText_append]
    rfl
  · have hline : ClosedGap [line body true] := closedGap_cons.2 ⟨hbody, rfl, closedGap_nil⟩
    refine ⟨front ++ [line body true], List.forall_mem_append.2 ⟨hfront, hline⟩, ?_⟩
    simp [Trivia.text]

namespace Cursor

/-- Two cursors at one place.  The first has the place `ending` in front of
the blank behind its text, and there the text of the second goes on with a
newline and `text`. -/
inductive Continued (text : List Char) (ending : Position) : Cursor → Cursor → Prop where
  | within (current : Char) (rest : List Char) {p : Position} (hending : p.advance rest = ending) :
      Continued text ending (within current rest p) (within current (rest ++ '\n' :: text) p)

variable {text : List Char} {ending : Position} {c d : Cursor}

/-- A reading that finds an item with its end gives the same on both sides. -/
theorem continued_next (h : Continued text ending c d) (hend : c.next.value.isEnd = false)
    (hclosed : c.next.value.isOpen = false) :
    d.next.value = c.next.value ∧ Continued text ending c.next.cursor d.next.cursor := by
  obtain ⟨current, rest, hending⟩ := h
  rename_i p
  obtain ⟨gap, item, tail, hgap, hshape, hstops, hunread, hnext⟩ := exists_item_of_not_isEnd hend
  obtain rfl : rest = gapText gap ++ (item.text ++ tail) := hunread
  rw [hnext, Item.isOpen_outcome] at hclosed
  have hcontinues : item.Stops (tail ++ '\n' :: text) := by
    rcases tail with _ | ⟨e, tail⟩
    · exact Item.stops_newline hshape hclosed text
    · have hhead : (e :: tail).head? = (e :: tail ++ '\n' :: text).head? := rfl
      exact Item.stops_of_head?_eq hshape hhead hstops
  have hother := read_item hgap hshape hcontinues p
  rw [← List.append_assoc item.text, ← List.append_assoc (gapText gap)] at hother
  rw [hnext, next_within, hother]
  refine ⟨rfl, ?_⟩
  simp only [after, hclosed, Bool.false_eq_true, if_false, position]
  refine .within _ tail ?_
  rw [← hending, Position.advance_append, Position.advance_append]

/-- The reading that comes to the end of the first text goes on behind the
newline in the second. -/
theorem continued_last (h : Continued text ending c d) (hend : c.next.value.isEnd = true) :
    d.next.value = (within frame text (ending.step '\n')).next.value ∧
      d.next.cursor = (within frame text (ending.step '\n')).next.cursor := by
  obtain ⟨current, rest, hending⟩ := h
  rename_i p
  obtain ⟨gap, hgap, hunread, -⟩ := exists_lastGap_of_isEnd hend
  obtain rfl : rest = gapText gap := hunread
  obtain ⟨closed, hclosed, htext⟩ := Trivia.exists_closedGap_newline hgap
  have hread := read_gapText_append hclosed p text
  rw [htext, Position.advance_append, hending, List.append_assoc] at hread
  exact hread

/-- The tokens of the second text are those of the first without their end
mark, and then those that a cursor behind the newline reads. -/
theorem tokens_of_continued (h : Continued text ending c d) {front : List Token} {q : Position}
    (htokens : c.tokens = .ok (front ++ [.eof q])) :
    d.tokens = (within frame text (ending.step '\n')).tokens.map (front ++ ·) := by
  induction front generalizing c d with
  | nil =>
    obtain ⟨token, hvalue, -, ⟨hend, -⟩ | ⟨hend, rest, -, hlist⟩⟩ := tokens_eq_ok_iff.1 htokens
    · have hlast : c.next.value.isEnd = true := by
        rw [hvalue]
        exact hend
      obtain ⟨hsame, hcursor⟩ := continued_last h hlast
      rw [tokens_congr hsame hcursor]
      cases (within frame text (ending.step '\n')).tokens <;> rfl
    · obtain ⟨rfl, -⟩ := List.cons.inj hlist
      exact absurd hend (by simp)
  | cons first front ih =>
    obtain ⟨token, hvalue, hstray, ⟨-, hlist⟩ | ⟨hend, rest, hrest, hlist⟩⟩ :=
      tokens_eq_ok_iff.1 htokens
    · simp at hlist
    · obtain ⟨rfl, rfl⟩ := List.cons.inj hlist
      have hnotEnd : c.next.value.isEnd = false := by
        rw [hvalue]
        exact hend
      have hclosed : c.next.value.isOpen = false := by
        rw [hvalue]
        rfl
      obtain ⟨hsame, hcontinued⟩ := continued_next h hnotEnd hclosed
      rw [tokens_eq d, hsame, hnotEnd, ih hcontinued hrest, hvalue,
        Outcome.strict_eq_ok_iff.2 ⟨rfl, hstray⟩]
      cases (within frame text (ending.step '\n')).tokens <;> rfl

/-- A text that starts on a new line has the tokens of the text alone,
further down. -/
theorem tokens_line_start (lines : Nat) (text : List Char) :
    (within frame text ⟨lines + 1, 0⟩).tokens =
      ((start text).tokens.map (List.map (Token.down lines))).mapError (Error.down lines) := by
  have hresumes := resumes_start frame text ⟨lines + 1, 0⟩
  symm
  apply tokens_map
  · intro n
    rw [outcomeAt_of_resumes hresumes, Outcome.strict_behind, ← Outcome.behind_line_start]
  · intro n
    rw [outcomeAt_of_resumes hresumes]
    cases (start text).outcomeAt n <;> rfl

/-- With nothing but blanks ahead, the end mark is the only token. -/
theorem tokens_of_blank {c : Cursor} (h : c.unread.all Text.isBlank = true) :
    c.tokens = .ok [.eof c.endPlace] := by
  have hvalue := outcomeAt_of_blank h 0
  have hstray : (Token.eof c.endPlace).kind ≠ .stray := by simp
  exact tokens_eq_ok_iff.2 ⟨_, hvalue, hstray, Or.inl ⟨rfl, rfl⟩⟩

end Cursor

/-- The tokens of two texts with a newline between them.  Behind the tokens
of the first text come those of the second, or its error, further down by the
lines of the first.  A second text of blanks adds nothing but the end mark
behind it. -/
theorem tokenize_newline {source text : String} {front : List Token} {p : Position}
    (h : tokenize source = .ok (front ++ [.eof p])) :
    (∀ tokens, tokenize text = .ok tokens →
        tokenize (source ++ "\n" ++ text) =
          .ok (front ++ tokens.map (Token.down (1 + source.toList.count '\n')))) ∧
      (∀ error, tokenize text = .error error → error.fault ≠ .emptyInput →
        tokenize (source ++ "\n" ++ text) =
          .error (error.down (1 + source.toList.count '\n'))) ∧
      (text.toList.all Text.isBlank = true →
        tokenize (source ++ "\n" ++ text) =
          .ok (front ++ [.eof (Position.ofOffset (source ++ "\n" ++ text).toList
            (source ++ "\n" ++ text).toList.length)])) := by
  obtain ⟨hsource, htokens⟩ := tokenize_eq_ok_iff.1 h
  have hwhole : (source ++ "\n" ++ text).toList = source.toList ++ '\n' :: text.toList := by simp
  have hblank : (source ++ "\n" ++ text).toList.all Text.isBlank = false := by
    simp [hwhole, hsource]
  have hcontinued : Cursor.Continued text.toList (Position.start.advance source.toList)
      (Cursor.start source.toList) (Cursor.start (source.toList ++ '\n' :: text.toList)) :=
    .within _ source.toList rfl
  have hall := Cursor.tokens_of_continued hcontinued htokens
  have hstart : (Position.start.advance source.toList).step '\n' =
      ⟨1 + source.toList.count '\n' + 1, 0⟩ := by
    rw [← Position.advance_start_newline, Position.advance_append]
    rfl
  rw [hstart] at hall
  have hjoin : tokenize (source ++ "\n" ++ text) = (Cursor.within Cursor.frame text.toList
      ⟨1 + source.toList.count '\n' + 1, 0⟩).tokens.map (front ++ ·) := by
    rw [tokenize_eq, hblank, hwhole, hall]
    rfl
  refine ⟨?_, ?_, ?_⟩
  · intro tokens htext
    rw [hjoin, Cursor.tokens_line_start, (tokenize_eq_ok_iff.1 htext).2]
    rfl
  · intro error htext hfault
    rw [tokenize_eq] at htext
    split at htext
    · obtain rfl := Except.error.inj htext
      exact absurd rfl hfault
    · rw [hjoin, Cursor.tokens_line_start, htext]
      rfl
  · intro htext
    have hplace := Position.right_advance_eq_ofOffset (source ++ "\n" ++ text).toList []
    rw [List.append_nil, hwhole, Position.advance_append, Position.advance_cons, hstart] at hplace
    have hmark := Cursor.tokens_of_blank (c := Cursor.within Cursor.frame text.toList
      ⟨1 + source.toList.count '\n' + 1, 0⟩) htext
    rw [hjoin, hmark, hwhole, ← hplace]
    rfl

/-- A text with a line comment at its end. -/
def commentSource : String := "x=1 // c"

/-- A text with a string over two lines. -/
def stringSource : String := "'a\nb' y"

theorem tokenize_comment_newline :
    tokenize commentSource =
        .ok ([.plain .identifier ['x'] ⟨1, 1⟩, .plain .assign ['='] ⟨1, 2⟩,
          .number ['1'] ⟨1, 3⟩ (.int 1)] ++ [.eof ⟨1, 9⟩]) ∧
      tokenize stringSource =
        .ok [.plain .stringLiteral "a\nb".toList ⟨1, 1⟩, .plain .identifier ['y'] ⟨2, 4⟩,
          .eof ⟨2, 5⟩] ∧
      tokenize (commentSource ++ "\n" ++ stringSource) =
        .ok [.plain .identifier ['x'] ⟨1, 1⟩, .plain .assign ['='] ⟨1, 2⟩,
          .number ['1'] ⟨1, 3⟩ (.int 1), .plain .stringLiteral "a\nb".toList ⟨2, 1⟩,
          .plain .identifier ['y'] ⟨3, 4⟩, .eof ⟨3, 5⟩] := by
  have hsource : tokenize commentSource =
      .ok ([.plain .identifier ['x'] ⟨1, 1⟩, .plain .assign ['='] ⟨1, 2⟩,
        .number ['1'] ⟨1, 3⟩ (.int 1)] ++ [.eof ⟨1, 9⟩]) := by
    decide +kernel
  have htext : tokenize stringSource =
      .ok [.plain .stringLiteral "a\nb".toList ⟨1, 1⟩, .plain .identifier ['y'] ⟨2, 4⟩,
        .eof ⟨2, 5⟩] := by
    decide +kernel
  exact ⟨hsource, htext, (tokenize_newline hsource).1 _ htext⟩

end SharpLexer
