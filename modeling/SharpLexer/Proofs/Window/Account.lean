import SharpLexer.Proofs.Account
import SharpLexer.Proofs.Window.Lockstep

/-!
# What a window reports turn by turn

A window reports a comment at the end of the turn that skips it, a stray character as soon
as it meets one, and a token when it is read.  What comes of all turns of a reading is what
its cursor reports.

* `Window.reports` is what one turn reports, from the places in the turn where it does so,
  and `Window.account` is what a reading reports over its turns.
* `Window.reports_of_done` says that the last turn reports its outcome, and
  `Window.account_gap` that the turns in front of it report the gap.
* `Window.account_showing` puts these together.
-/

namespace SharpLexer

namespace Window

open Cursor (within closing ended frame nothing)

/-! ## Reporting -/

/-- What is reported over one comment or one item, whose first character the window stands
on. -/
def reports (w : Window) : List Event :=
  let start := w.position
  if w.current = Cursor.nothing ∧ w.atEnd = true then Item.produced (.ok (.eof start))
  else if Item.isQuote w.current then Item.produced (w.quoted start).value
  else if w.current = '/' ∧ w.lookahead = '/' then
    if w.charAt (w.index + 2) = '/' then Item.produced (w.doc start).value
    else [.skippedLine w.skipLine.line]
  else if w.current = '/' ∧ w.lookahead = '*' then
    if w.skipBlock.atEnd then [] else [.skippedBlock start]
  else if Item.startsWord w.current then Item.produced (w.word start).value
  else if w.current.isDigit then Item.produced (w.number start).value
  else
    match Operator.find? [w.current, w.lookahead, w.charAt (w.index + 2)] with
    | some _ => Item.produced (w.operator start).value
    | none => .unrecognized w.current start :: Item.produced (w.operator start).value

/-- What is reported over all turns of a reading. -/
def account (w : Window) : List Event :=
  match _h : w.turn with
  | .again w' => w.advance.skipBlanks.reports ++ account w'
  | .done _ => w.advance.skipBlanks.reports
termination_by w.left
decreasing_by exact left_lt_of_turn _h

theorem account_of_again {w w' : Window} (h : w.turn = .again w') :
    w.account = w.advance.skipBlanks.reports ++ w'.account := by
  rw [account]
  split
  · next found hfound => rw [Turn.again.inj (h.symm.trans hfound)]
  · next glance hfound => exact Turn.noConfusion (h.symm.trans hfound)

theorem account_of_done {w : Window} {glance : Glance Outcome} (h : w.turn = .done glance) :
    w.account = w.advance.skipBlanks.reports := by
  rw [account]
  split
  · next found hfound => exact Turn.noConfusion (h.symm.trans hfound)
  · rfl

theorem account_of_skipBlanks_eq {w w' : Window}
    (h : w.advance.skipBlanks = w'.advance.skipBlanks) : w.account = w'.account := by
  have hturn : w.turn = w'.turn := congrArg read h
  cases hcase : w'.turn with
  | again v => rw [account_of_again (hturn.trans hcase), account_of_again hcase, h]
  | done glance => rw [account_of_done (hturn.trans hcase), account_of_done hcase, h]

/-! ## The last turn -/

section Values

variable (w : Window) (start : Position)

theorem warnings_quoted : (w.quoted start).value.warnings = [] := by
  unfold quoted
  dsimp only
  split
  · exact Outcome.warnings_plain (by decide) _ _
  · rfl

theorem warnings_word : (w.word start).value.warnings = [] :=
  Outcome.warnings_plain (Kind.ne_of_not_special (Word.kind_not_special _) (by decide)) _ _

theorem warnings_number : (w.number start).value.warnings = [] := by
  unfold number Item.outcome
  dsimp only
  split <;> rfl

/-- Only what no operator fits is warned about. -/
theorem warnings_operator : (w.operator start).value.warnings =
    match Operator.find? [w.current, w.lookahead, w.charAt (w.index + 2)] with
    | some _ => []
    | none => [.unrecognized w.current start] := by
  unfold operator
  cases hfind : Operator.find? [w.current, w.lookahead, w.charAt (w.index + 2)] with
  | some op =>
    have hkind := Operator.kind_not_special op (Operator.find?_eq_some hfind).1
    exact Outcome.warnings_plain (Kind.ne_of_not_special hkind (by decide)) _ _
  | none => exact Outcome.warnings_stray _ _

end Values

/-- A turn that comes to an outcome reports a stray character, and then the token. -/
theorem reports_of_done {w : Window} {glance : Glance Outcome} (h : w.read = .done glance) :
    w.reports = glance.value.warnings ++ Item.produced glance.value := by
  unfold read at h
  unfold reports
  dsimp only at h ⊢
  split_ifs at h ⊢ with hend hquote hline hdoc hblock hopen hword hdigit
  all_goals obtain rfl := Turn.done.inj h
  · rfl
  · rw [warnings_quoted, List.nil_append]
  · rfl
  · rfl
  · rw [warnings_word, List.nil_append]
  · rw [warnings_number, List.nil_append]
  · rw [warnings_operator]
    split <;> rfl

theorem account_of_outcome {w : Window} {glance : Glance Outcome} (h : w.turn = .done glance) :
    w.account = glance.value.warnings ++ Item.produced glance.value := by
  rw [account_of_done h]
  exact reports_of_done h

/-! ## The turns in front of it -/

variable {text rest body : List Char} {d : Char} {p : Position} {w : Window}

/-- Behind a line comment the window stands on the line that is reported. -/
theorem reports_slash_slash (hw : w = showing text (within '/' ('/' :: rest) p))
    (h : '/' :: rest <:+ text) (hthird : ¬ rest.head?.getD frame = '/') :
    w.reports = [.skippedLine w.skipLine.line] := by
  subst hw
  simp [reports, atEnd_within h, Item.isQuote, charAt_showing_cons h, hthird]

/-- Behind a block comment the place of its start is reported. -/
theorem reports_slash_star (hw : w = showing text (within '/' ('*' :: rest) p))
    (h : '*' :: rest <:+ text) (hclosed : w.skipBlock.atEnd = false) :
    w.reports = [.skippedBlock p] := by
  subst hw
  simp [reports, atEnd_within h, Item.isQuote, hclosed]

/-- A comment is reported by its turn, and a blank by none. -/
theorem account_piece {piece : Trivia} (hpiece : piece.WellFormed)
    (hclosed : piece.isClosed = true) (htext : piece.text ++ rest <:+ text) :
    ∃ e, (showing text (within d (piece.text ++ rest) p)).account =
      (Trivia.event? p piece).toList ++
        (showing text (within e rest (p.advance piece.text))).account := by
  cases piece with
  | blank c => exact ⟨c, account_of_skipBlanks_eq (skipBlanks_blank htext hpiece)⟩
  | line body newline =>
    obtain rfl : newline = true := hclosed
    rw [Trivia.text_line_append] at htext ⊢
    have hinner := (List.suffix_cons '/' _).trans htext
    have hskip : (showing text (within '/' ('/' :: (body ++ '\n' :: rest)) p.right)).skipLine =
        showing text (within '\n' rest (p.advance (Trivia.line body true).text)) :=
      skipLine_of_newline hpiece.1 htext
    refine ⟨'\n', ?_⟩
    rw [account_of_again (turn_line hpiece htext), skipBlanks_within htext (by decide),
      reports_slash_slash rfl hinner (not_third_slash hpiece (by simp)), hskip]
    rfl
  | block body =>
    rw [Trivia.text_block_append] at htext ⊢
    have hinner := (List.suffix_cons '/' _).trans htext
    have hopen : (showing text
        (within '/' ('*' :: (body ++ '*' :: '/' :: rest)) p.right)).skipBlock.atEnd = false := by
      rw [skipBlock_of_close hpiece hinner, atEnd_within (suffix_of_block htext)]
    refine ⟨'/', ?_⟩
    rw [account_of_again (turn_block hpiece htext), skipBlanks_within htext (by decide),
      reports_slash_star rfl hinner hopen]
    rfl

theorem account_gap {gap : List Trivia} (hgap : Trivia.ClosedGap gap)
    (htext : Trivia.gapText gap ++ rest <:+ text) :
    ∃ e, (showing text (within d (Trivia.gapText gap ++ rest) p)).account =
      Trivia.events p gap ++
        (showing text (within e rest (p.advance (Trivia.gapText gap)))).account := by
  induction gap generalizing d p with
  | nil => exact ⟨d, rfl⟩
  | cons piece gap ih =>
    obtain ⟨hpiece, hclosed, hgap⟩ := Trivia.closedGap_cons.1 hgap
    rw [Trivia.gapText_cons, List.append_assoc] at htext ⊢
    obtain ⟨e, hfirst⟩ := account_piece hpiece hclosed htext
    obtain ⟨f, hrest⟩ := ih hgap ((List.suffix_append _ _).trans htext)
    refine ⟨f, ?_⟩
    rw [hfirst, hrest, Trivia.events_cons, Position.advance_append, List.append_assoc]

/-! ## One reading -/

/-- A line comment that the text ends is reported, and then the end mark. -/
theorem account_lastLine (hpiece : (Trivia.line body false).WellFormed)
    (htext : '/' :: '/' :: body <:+ text) :
    (showing text (within d ('/' :: '/' :: body) p)).account =
      [.skippedLine (p.advance ('/' :: '/' :: body)).line,
        .produced (.eof (p.advance ('/' :: '/' :: body)).right)] := by
  have hinner := (List.suffix_cons '/' _).trans htext
  have hthird : ¬ (body ++ []).head?.getD frame = '/' := not_third_slash hpiece (by simp)
  rw [List.append_nil] at hthird
  have hskip : (showing text (within '/' ('/' :: body) p.right)).skipLine =
      showing text (closing (p.advance ('/' :: '/' :: body)).right) :=
    skipLine_of_end hpiece.1 htext
  rw [account_of_again (turn_lastLine hpiece htext), skipBlanks_within htext (by decide),
    reports_slash_slash rfl hinner hthird, hskip, account_of_outcome turn_closing]
  rfl

/-- A gap with nothing behind it is reported in front of the end mark. -/
theorem account_lastGap {gap : List Trivia} (hgap : Trivia.LastGap gap)
    (htext : Trivia.gapText gap <:+ text) :
    (showing text (within d (Trivia.gapText gap) p)).account =
      Trivia.events p gap ++ [.produced (.eof (p.advance (Trivia.gapText gap)).right)] := by
  rcases hgap with hclosed | ⟨front, body, rfl, hfront, hbody⟩
  · have hwhole : Trivia.gapText gap ++ [] <:+ text := by simpa using htext
    obtain ⟨e, haccount⟩ := account_gap (d := d) (p := p) hclosed hwhole
    rw [List.append_nil] at haccount
    rw [haccount, account_of_outcome turn_last]
    rfl
  · have hline : Trivia.gapText [.line body false] = '/' :: '/' :: body := by simp [Trivia.text]
    rw [Trivia.gapText_append] at htext ⊢
    obtain ⟨e, haccount⟩ := account_gap (d := d) (p := p) hfront htext
    rw [hline] at htext haccount ⊢
    have htail := (List.suffix_append _ _).trans htext
    have hevents : ∀ q : Position, Trivia.events q [.line body false] =
        [.skippedLine (q.advance ('/' :: '/' :: body)).line] := by
      intro q
      simp [Trivia.event?, Trivia.text]
    rw [haccount, account_lastLine hbody htail, Trivia.events_append, hevents,
      Position.advance_append, List.append_assoc]
    rfl

/-- A window reports what its cursor does. -/
theorem account_showing {c : Cursor} (h : c.unread <:+ text) :
    (showing text c).account = c.next.events := by
  -- the cases are those of `Cursor.next_cases`: nothing but a gap ahead, or an item behind one
  cases c with
  | within d rest p =>
    rcases Cursor.next_cases (within d rest p) with
      ⟨gap, hgap, hunread, hnext⟩ | ⟨gap, item, tail, hgap, hshape, hstops, hunread, hnext⟩
    · obtain rfl : rest = Trivia.gapText gap := hunread
      rw [account_lastGap hgap h, hnext]
      rfl
    · obtain rfl : rest = Trivia.gapText gap ++ (item.text ++ tail) := hunread
      have hitem : item.text ++ tail <:+ text := (List.suffix_append _ _).trans h
      obtain ⟨e, haccount⟩ := account_gap (d := d) (p := p) hgap h
      obtain ⟨slices, hturn, -⟩ :=
        reads_item (d := e) (p := p.advance (Trivia.gapText gap)) hshape hstops hitem
      rw [haccount, account_of_outcome hturn, hnext, Item.events_eq hshape]
      rfl
  | closing p => exact account_of_outcome turn_closing
  | ended p => exact account_of_outcome turn_ended

end Window

end SharpLexer
