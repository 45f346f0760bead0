import SharpLexer.Proofs.Records

/-!
# The line that a skipped line comment is logged with

A line comment lies on one line.  Its record names the line that the reader stands on
behind the comment: the next one where a newline ends the comment, since the reader stands
on that newline, and the line of the comment itself where the text ends it.

* `Cursor.LogsLine` finds the record of a line comment by its place in the gap, and
  `Cursor.logsLine_iff` says which number it shows.
* `Trivia.LongestGap.drop_eq_iff` tells a comment that the text ends from the others.
* `logsLine_of_ofSource` is about every line comment of every run, and
  `not_logsLine_twoLinesSource` the least comment with another line in its record.
-/

namespace SharpLexer

open Trivia (ClosedGap LastGap gapText)

namespace Trivia

/-- Every comment of a gap is reported once, and nothing else is. -/
theorem length_events (before : Position) (gap : List Trivia) :
    (events before gap).length = (gap.filter isComment).length := by
  induction gap generalizing before with
  | nil => rfl
  | cons piece gap ih =>
    rw [events_cons, List.length_append, ih]
    cases piece with
    | blank c => simp [event?, isComment]
    | line body newline => simp [event?, List.filter_cons, isComment, Nat.add_comm]
    | block body => simp [event?, List.filter_cons, isComment, Nat.add_comm]

namespace LongestGap

variable {text rest body : List Char} {front back : List Trivia} {newline : Bool}

/-- Nothing stands behind a line comment without a newline. -/
theorem eq_nil_of_open (h : LongestGap text (front ++ .line body false :: back) rest) :
    back = [] ∧ rest = [] := by
  have hopen : ∀ gap, ClosedGap gap → Trivia.line body false ∉ gap := by
    intro gap hgap hmem
    exact absurd (hgap _ hmem).2 (by simp [isClosed])
  rcases h.skippable with hclosed | ⟨hlast, hrest⟩
  · exact absurd (by simp) (hopen _ hclosed)
  · -- only the last piece of such a gap is open, and this one is
    refine ⟨?_, hrest⟩
    rcases hlast with hclosed | ⟨closed, other, hgap, hclosed, -⟩
    · exact absurd (by simp) (hopen _ hclosed)
    · rcases List.eq_nil_or_concat back with hnil | ⟨init, last, rfl⟩
      · exact hnil
      · have hsplit : (front ++ .line body false :: init) ++ [last] =
            closed ++ [.line other false] := by
          simpa using hgap
        have hinit := (List.append_inj' hsplit rfl).1
        exact absurd (by simp [← hinit]) (hopen _ hclosed)

/-- A line comment is the end of the text where no newline ends it. -/
theorem drop_eq_iff (h : LongestGap text (front ++ .line body newline :: back) rest) :
    text.drop (gapText front).length = '/' :: '/' :: body ↔ newline = false := by
  have htext := h.text_eq
  rw [gapText_append, gapText_cons, List.append_assoc] at htext
  rw [htext, List.drop_left]
  constructor
  · intro hbody
    have hlength := congrArg List.length hbody
    cases newline with
    | false => rfl
    | true =>
      -- the newline is behind the body
      simp [Trivia.text] at hlength
  · rintro rfl
    obtain ⟨rfl, rfl⟩ := h.eq_nil_of_open
    simp [Trivia.text]

end LongestGap

end Trivia

/-! ## Records of line comments -/

namespace Cursor

variable {c : Cursor} {text rest body : List Char} {front back : List Trivia} {newline : Bool}

/-- The line comment behind the pieces `front` of the gap ahead is logged with the given
line.  Its record is as far back among those of the reading as there are comments in
`front`. -/
def LogsLine (c : Cursor) (front : List Trivia) (number : Nat) : Prop :=
  (c.next.events.map Event.record)[(front.filter Trivia.isComment).length]? =
    some (.trace, "skipped line comment ending on line " ++ number.repr)

/-- A line comment is logged with one number. -/
theorem LogsLine.eq {m n : Nat} (hm : c.LogsLine front m) (hn : c.LogsLine front n) : m = n := by
  have hrecord := Option.some.inj (hm.symm.trans hn)
  have hmessage := congrArg Prod.snd hrecord
  exact Nat.eq_of_repr_eq ((String.append_right_inj _).1 hmessage)

/-- A line comment is logged with the line behind it, and with no other. -/
theorem logsLine_iff (h : Trivia.LongestGap c.unread (front ++ .line body newline :: back) rest)
    {number : Nat} :
    c.LogsLine front number ↔
      number = (c.position.advance (gapText front)).line + if newline then 1 else 0 := by
  have hshape : (Trivia.line body newline).WellFormed :=
    Trivia.wellFormed_of_lastGap h.lastGap _ (by simp)
  -- the comments in `front` make the records up to the index, and this comment the next one
  have hlogs : c.LogsLine front
      ((c.position.advance (gapText front)).line + if newline then 1 else 0) := by
    rw [LogsLine, List.getElem?_map, events_next h, Trivia.events_append, Trivia.events_cons,
      Trivia.event?, Trivia.line_advance_line hshape, List.append_assoc, List.append_assoc,
      ← Trivia.length_events c.position front, List.getElem?_append_right le_rfl, Nat.sub_self]
    rfl
  constructor
  · intro hnumber
    exact hnumber.eq hlogs
  · rintro rfl
    exact hlogs

/-- What is ahead is the text from its offset on. -/
theorem drop_unread (hstands : c.StandsIn text) (k : Nat) :
    text.drop (text.length - c.unread.length + k) = c.unread.drop k := by
  obtain ⟨passed, htext, hoffset, -⟩ := exists_front_at_offset hstands
  rw [hoffset, htext, List.drop_length_add_append]

/-- The line of a comment, counted by the reader and told from the text. -/
theorem line_of_front (hstands : c.StandsIn text) (hne : c.unread ≠ [])
    (hfront : gapText front <+: c.unread) :
    (c.position.advance (gapText front)).line =
      (Position.ofOffset text
        (text.length - c.unread.length + (gapText front).length)).line := by
  obtain ⟨passed, htext, hoffset, hplace⟩ := exists_front_at_offset hstands
  obtain ⟨ahead, hahead⟩ := hfront
  have hline := congrArg Position.line
    (Position.right_advance_eq_ofOffset (passed ++ gapText front) ahead)
  rw [List.append_assoc, hahead, ← htext, List.length_append, ← hoffset,
    Position.advance_append, ← hplace hne] at hline
  exact hline

end Cursor

/-! ## Runs -/

/-- In a run over a text, a line comment is logged with its own line just if it is the end
of the text.  If a newline ends it, it is logged with the line behind that newline. -/
theorem logsLine_of_ofSource {source : String} {opened : Reading Unit}
    (h : Cursor.ofSource source = .ok opened) (n : Nat) {front back : List Trivia}
    {body rest : List Char} {newline : Bool}
    (hgap : Trivia.LongestGap (opened.cursor.later n).unread
      (front ++ .line body newline :: back) rest) :
    let offset := source.toList.length - (opened.cursor.later n).unread.length +
      (gapText front).length
    let own := (Position.ofOffset source.toList offset).line
    '\n' ∉ body ∧
      (Trivia.line body newline).text <+: source.toList.drop offset ∧
      (∀ number, (opened.cursor.later n).LogsLine front number ↔
        number = own + if newline then 1 else 0) ∧
      ((opened.cursor.later n).LogsLine front own ↔
        source.toList.drop offset = '/' :: '/' :: body) := by
  obtain ⟨-, rfl⟩ := Cursor.ofSource_eq_ok_iff.1 h
  intro offset own
  set c := (Cursor.start source.toList).later n
  have hstands : c.StandsIn source.toList :=
    Cursor.standsIn_later (Cursor.standsIn_start source.toList) n
  have hshape : (Trivia.line body newline).WellFormed :=
    Trivia.wellFormed_of_lastGap hgap.lastGap _ (by simp)
  have htext : c.unread = gapText front ++ ((Trivia.line body newline).text ++
      (gapText back ++ rest)) := by
    simpa using hgap.text_eq
  have hne : c.unread ≠ [] := by
    rw [htext]
    simp [Trivia.text_ne_nil]
  have hdrop : source.toList.drop offset = c.unread.drop (gapText front).length :=
    Cursor.drop_unread hstands _
  have hown : (c.position.advance (gapText front)).line = own :=
    Cursor.line_of_front hstands hne ⟨_, htext.symm⟩
  have hlogs : ∀ number, c.LogsLine front number ↔ number = own + if newline then 1 else 0 := by
    intro number
    rw [← hown]
    exact Cursor.logsLine_iff hgap
  refine ⟨hshape.1, ?_, hlogs, ?_⟩
  · rw [hdrop, htext, List.drop_left]
    exact List.prefix_append _ _
  · rw [hlogs, hdrop, hgap.drop_eq_iff]
    cases newline <;> simp

/-- Two line comments on two lines, behind a comment that leads to the first of them. -/
def stackedSource : String := "/*\n*/// a\n// b"

/-- Both comments of `stackedSource` are logged with line three, where the second one
lies. -/
theorem logsLine_stackedSource :
    Cursor.ofSource stackedSource = .ok ⟨(), [.opened 14], Cursor.start stackedSource.toList⟩ ∧
      (Position.ofOffset stackedSource.toList 5).line = 2 ∧
      (Cursor.start stackedSource.toList).LogsLine [.block ['\n']] 3 ∧
      (Position.ofOffset stackedSource.toList 10).line = 3 ∧
      (Cursor.start stackedSource.toList).LogsLine
        [.block ['\n'], .line [' ', 'a'] true] 3 := by
  have hopened : Cursor.ofSource stackedSource =
      .ok ⟨(), [.opened 14], Cursor.start stackedSource.toList⟩ :=
    Cursor.ofSource_eq_ok_iff.2 ⟨by decide, rfl⟩
  have hbody : ¬ ['*', '/'] <:+: ['\n'] := by decide
  have hfront : ClosedGap [.block ['\n'], .line [' ', 'a'] true] := by
    rw [Trivia.closedGap_cons, Trivia.closedGap_cons]
    exact ⟨hbody, rfl, by simp [Trivia.WellFormed], rfl, Trivia.closedGap_nil⟩
  have hall : LastGap ([.block ['\n'], .line [' ', 'a'] true] ++ [.line [' ', 'b'] false]) :=
    .inr ⟨_, [' ', 'b'], rfl, hfront, by simp [Trivia.WellFormed]⟩
  have hgap := Trivia.longestGap_of_lastGap hall
  have hgap' : Trivia.LongestGap stackedSource.toList
      ([.block ['\n']] ++ [.line [' ', 'a'] true, .line [' ', 'b'] false]) [] := hgap
  obtain ⟨-, -, hfirst, -⟩ := logsLine_of_ofSource hopened 0 hgap'
  obtain ⟨-, -, -, hlast⟩ := logsLine_of_ofSource hopened 0 hgap
  exact ⟨hopened, by decide, (hfirst 3).2 (by decide), by decide, hlast.2 (by decide)⟩

/-- A line comment in front of a word on the next line. -/
def twoLinesSource : String := "// a\nb"

/-- The comment of `twoLinesSource` lies on line one and is logged with line two. -/
theorem not_logsLine_twoLinesSource :
    Cursor.ofSource twoLinesSource =
        .ok ⟨(), [.opened 6], Cursor.start twoLinesSource.toList⟩ ∧
      (Cursor.start twoLinesSource.toList).next.events.map Event.record =
        [(.trace, "skipped line comment ending on line 2"),
          (.trace, "Token(kind=Ident, lexeme=\"b\", line=2, column=1)")] ∧
      ¬ ∀ (source : String) (opened : Reading Unit), Cursor.ofSource source = .ok opened →
        ∀ (n : Nat) (front back : List Trivia) (body rest : List Char) (newline : Bool),
          Trivia.LongestGap (opened.cursor.later n).unread
            (front ++ .line body newline :: back) rest →
          (opened.cursor.later n).LogsLine front
            (Position.ofOffset source.toList
              (source.toList.length - (opened.cursor.later n).unread.length +
                (gapText front).length)).line := by
  have hopened : Cursor.ofSource twoLinesSource =
      .ok ⟨(), [.opened 6], Cursor.start twoLinesSource.toList⟩ :=
    Cursor.ofSource_eq_ok_iff.2 ⟨by decide, rfl⟩
  have hcomment : ClosedGap [.line [' ', 'a'] true] := by
    rw [Trivia.closedGap_cons]
    exact ⟨by simp [Trivia.WellFormed], rfl, Trivia.closedGap_nil⟩
  have hgap : Trivia.LongestGap (Cursor.start twoLinesSource.toList).unread
      ([] ++ [.line [' ', 'a'] true]) ['b'] :=
    Trivia.longestGap_of_closedGap hcomment (by decide)
  refine ⟨hopened, by decide +kernel, ?_⟩
  intro hclaim
  have hown := hclaim _ _ hopened 0 [] [] [' ', 'a'] _ true hgap
  exact absurd ((Cursor.logsLine_iff hgap).1 hown) (by decide)

end SharpLexer
