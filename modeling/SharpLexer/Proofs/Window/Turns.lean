import SharpLexer.Proofs.Run
import SharpLexer.Proofs.Window.Items

/-!
# What a window does turn by turn

A window reads a gap piece by piece.  A blank is passed over on the way, and a
comment takes a turn of its own, so a window comes to the item behind a gap after
as many turns as the gap has comments.

* `Window.Reads` is a turn that reads an item, and `Window.reads_item` says that a
  window reads the items of the grammar.
* `Window.next_gap` takes a gap off the text ahead, and `Window.next_lastGap` is
  the gap with nothing behind it.
* `Window.next_showing` puts these together: a window reads what its cursor does.
-/

namespace SharpLexer

namespace Trivia

theorem text_line_append (body rest : List Char) :
    (line body true).text ++ rest = '/' :: '/' :: (body ++ '\n' :: rest) := by
  simp [text]

theorem text_block_append (body rest : List Char) :
    (block body).text ++ rest = '/' :: '*' :: (body ++ '*' :: '/' :: rest) := by
  simp [text]

end Trivia

namespace Window

open Cursor (within closing ended frame nothing)

variable {text rest tail : List Char} {c d : Char} {p : Position}

/-! ## One turn -/

/-- A turn that reads an item at the place behind `p`.  Its slices lie inside of
the framed text. -/
def Reads (text : List Char) (w : Window) (item : Item) (tail : List Char) (p : Position) : Prop :=
  ∃ slices, w.turn = .done ⟨item.outcome p.right, slices, showing text (Cursor.after p item tail)⟩ ∧
    ∀ bounds ∈ slices, Inside text bounds

theorem step_eq_right {c : Char} (hc : Text.isBlank c = false) (p : Position) :
    p.step c = p.right := by
  apply Position.step_of_ne
  rintro rfl
  exact absurd hc (by decide)

/-- The first character that is no blank is where a turn starts. -/
theorem skipBlanks_within (h : c :: rest <:+ text) (hc : Text.isBlank c = false) :
    (showing text (within d (c :: rest) p)).advance.skipBlanks =
      showing text (within c rest p.right) := by
  rw [advance_within h, step_eq_right hc]
  exact advanceWhile_of_not hc

theorem turn_within (h : c :: rest <:+ text) (hc : Text.isBlank c = false) :
    (showing text (within d (c :: rest) p)).turn =
      (showing text (within c rest p.right)).read := by
  rw [turn, skipBlanks_within h hc]

/-- Where an item that has its end leaves a cursor. -/
theorem after_cons {item : Item} {more : List Char} (hitem : item.text = c :: more)
    (hclosed : item.isOpen = false) (hc : Text.isBlank c = false) (tail : List Char)
    (p : Position) :
    Cursor.after p item tail =
      within (more.getLast?.getD c) tail (p.right.advance more) := by
  rw [Cursor.after, hclosed, hitem, List.getLast?_cons, Position.advance_cons, step_eq_right hc]
  rfl

/-- An item that has its end is read from its first character on. -/
theorem reads_of_read (item : Item) (slices : List (Int × Int)) {more : List Char}
    (hitem : item.text = c :: more) (hclosed : item.isOpen = false)
    (hc : Text.isBlank c = false) (htext : c :: (more ++ tail) <:+ text)
    (hread : (showing text (within c (more ++ tail) p.right)).read =
      .done ⟨item.outcome p.right, slices,
        showing text (within (more.getLast?.getD c) tail (p.right.advance more))⟩)
    (hslices : ∀ bounds ∈ slices, Inside text bounds) :
    Reads text (showing text (within d (item.text ++ tail) p)) item tail p := by
  rw [hitem]
  refine ⟨slices, ?_, hslices⟩
  rw [after_cons hitem hclosed hc]
  exact (turn_within htext hc).trans hread

theorem reads_operator {op : Operator} (hop : op ∈ Operator.table)
    (hstops : (Item.operator op).Stops tail) (htext : op.symbol ++ tail <:+ text) :
    Reads text (showing text (within d (op.symbol ++ tail) p)) (.operator op) tail p := by
  obtain ⟨hlongest, hline, hblock⟩ := hstops
  obtain ⟨c, more, hsymbol⟩ := List.exists_cons_of_ne_nil (Operator.symbol_ne_nil op hop)
  have hstarts : Operator.starts c = true :=
    Operator.starts_eq_true_iff.2 ⟨op, hop, by simp [hsymbol]⟩
  obtain ⟨hblank, hquote, hword, hdigit⟩ := Operator.classes_of_starts hstarts
  have hfind : Operator.find? (op.symbol ++ tail) = some op :=
    Operator.find?_eq_some_iff.2 ⟨hop, List.prefix_append _ _, hlongest⟩
  have hlength : op.symbol.length - 1 = more.length := by simp [hsymbol]
  rw [hsymbol, List.cons_append] at htext hline hblock hfind
  have hinner : more ++ tail <:+ text := (List.suffix_cons c _).trans htext
  refine reads_of_read (.operator op) [] hsymbol rfl hblank htext ?_ (by simp)
  rw [read_operator hinner hquote hword hdigit hline hblock, hfind]
  simp only [hlength, advanceBy_within hinner]

theorem reads_stray (hstray : Item.isRecognised c = false) (htext : c :: tail <:+ text) :
    Reads text (showing text (within d (c :: tail) p)) (.stray c) tail p := by
  simp only [Item.isRecognised, Bool.or_eq_false_iff] at hstray
  obtain ⟨⟨⟨⟨hblank, hquote⟩, hword⟩, hdigit⟩, hstarts⟩ := hstray
  have hslash : '/' ≠ c := by
    rintro rfl
    exact absurd hstarts (by decide +kernel)
  have hinner : tail <:+ text := (List.suffix_cons c _).trans htext
  refine reads_of_read (.stray c) [] rfl rfl hblank htext ?_ (by simp)
  rw [List.nil_append, read_operator hinner hquote hword hdigit (by simp [hslash])
    (by simp [hslash]), Operator.find?_eq_none_iff.2 hstarts]
  rfl

theorem reads_item {item : Item} (hshape : item.WellFormed) (hstops : item.Stops tail)
    (htext : item.text ++ tail <:+ text) :
    Reads text (showing text (within d (item.text ++ tail) p)) item tail p := by
  cases hshape with
  | operator hop => exact reads_operator hop hstops htext
  | @word c letters hfirst hletters =>
    obtain ⟨hblank, -⟩ := Item.isBlank_eq_false_of_class (Or.inr (Or.inl hfirst))
    refine reads_of_read (.word (c :: letters)) _ rfl rfl hblank htext
      (read_word hfirst (isChain_letters hfirst hletters) ?_ htext)
      (List.forall_mem_singleton.2 (inside_offset (c :: letters) htext))
    exact not_goesOn_of_stops hfirst hletters hstops _
  | @question c letters hfirst hletters =>
    obtain ⟨hblank, -⟩ := Item.isBlank_eq_false_of_class (Or.inr (Or.inl hfirst))
    refine reads_of_read (.word (c :: (letters ++ ['?']))) _ rfl rfl hblank htext
      (read_word hfirst (isChain_question hfirst hletters) ?_ htext)
      (List.forall_mem_singleton.2 (inside_offset (c :: (letters ++ ['?'])) htext))
    rw [List.getLast?_concat]
    exact fun hgo => absurd hgo.1 (by decide : ¬ Item.continuesWord '?' = true)
  | @number c digits hfirst hdigits =>
    obtain ⟨hblank, -⟩ := Item.isBlank_eq_false_of_class (Or.inr (Or.inr hfirst))
    exact reads_of_read (.number (c :: digits)) _ rfl rfl hblank htext
      (read_number hfirst hdigits hstops htext)
      (List.forall_mem_singleton.2 (inside_offset (c :: digits) htext))
  | @quoted quote body hquote hbody =>
    obtain ⟨hblank, -⟩ := Item.isBlank_eq_false_of_class (Or.inl hquote)
    have hsplit : (body ++ [quote]) ++ tail = body ++ quote :: tail := by simp
    have hinner : body ++ quote :: tail <:+ text := by
      rw [← hsplit]
      exact (List.suffix_cons quote _).trans htext
    refine reads_of_read (.quoted quote body) _ rfl rfl hblank htext ?_
      (List.forall_mem_singleton.2 (inside_offset body hinner))
    rw [hsplit, read_quoted hquote hbody hinner, List.getLast?_concat]
    rfl
  | @doc body hbody =>
    exact reads_of_read (.doc ('/' :: '/' :: '/' :: body)) _ rfl rfl (by decide) htext
      (read_doc hbody hstops htext)
      (List.forall_mem_singleton.2 (inside_offset ('/' :: '/' :: '/' :: body) htext))
  | stray hstray => exact reads_stray hstray htext
  | @openQuoted quote body hquote hbody =>
    obtain rfl : tail = [] := hstops
    obtain ⟨hblank, -⟩ := Item.isBlank_eq_false_of_class (Or.inl hquote)
    simp only [Item.text, List.append_nil] at htext ⊢
    have hinner := (List.suffix_cons quote _).trans htext
    refine ⟨[], ?_, by simp⟩
    rw [turn_within htext hblank, read_openQuoted hquote hbody hinner, ← step_eq_right hblank]
    rfl
  | @openBlock body hbody =>
    obtain rfl : tail = [] := hstops
    simp only [Item.text, List.append_nil] at htext ⊢
    have hinner := (List.suffix_cons '/' _).trans htext
    refine ⟨[], ?_, by simp⟩
    rw [turn_within htext (by decide), read_slash_star rfl hinner, skipBlock_of_open hbody hinner,
      atEnd_closing]
    rfl

theorem skipBlanks_ended :
    (showing text (ended p)).advance.skipBlanks = showing text (ended p) := by
  rw [advance_ended]
  exact advanceWhile_of_not rfl

theorem skipBlanks_closing :
    (showing text (closing p)).advance.skipBlanks = showing text (ended p) := by
  rw [advance_closing]
  exact advanceWhile_of_not rfl

theorem skipBlanks_last :
    (showing text (within d [] p)).advance.skipBlanks = showing text (ended p.right) := by
  -- the closing blank is skipped like any other
  rw [advance_last, skipBlanks, advanceWhile, if_pos, ← skipBlanks, skipBlanks_closing]
  refine ⟨rfl, ?_⟩
  rw [advance_closing, left_showing, left_showing]
  simp only [Cursor.index]
  omega

/-- Behind the last character comes the end mark. -/
theorem read_ended : (showing text (ended p)).read =
    .done ⟨.ok (.eof p), [], showing text (ended p)⟩ := by
  have hend : (showing text (ended p)).atEnd = true := by
    simp only [atEnd, index_showing, Cursor.index, unsigned_natCast, buffer_showing,
      decide_eq_true_eq, List.length_cons, List.length_append, List.length_nil]
    omega
  rw [read, if_pos ⟨rfl, hend⟩]
  rfl

theorem turn_ended : (showing text (ended p)).turn =
    .done ⟨.ok (.eof p), [], showing text (ended p)⟩ := by
  rw [turn, skipBlanks_ended, read_ended]

theorem turn_closing : (showing text (closing p)).turn =
    .done ⟨.ok (.eof p), [], showing text (ended p)⟩ := by
  rw [turn, skipBlanks_closing, read_ended]

theorem turn_last : (showing text (within d [] p)).turn =
    .done ⟨.ok (.eof p.right), [], showing text (ended p.right)⟩ := by
  rw [turn, skipBlanks_last, read_ended]

/-! ## Gaps -/

theorem next_of_turn_eq {w w' : Window} (h : w.turn = w'.turn) : w.next = w'.next := by
  cases hturn : w'.turn with
  | again v => rw [next_of_again (h.trans hturn), next_of_again hturn]
  | done glance => rw [next_of_done (h.trans hturn), next_of_done hturn]

theorem skipBlanks_blank (h : c :: rest <:+ text) (hc : Text.isBlank c = true) :
    (showing text (within d (c :: rest) p)).advance.skipBlanks =
      (showing text (within c rest (p.step c))).advance.skipBlanks := by
  have hinner : rest <:+ text := (List.suffix_cons c _).trans h
  rw [advance_within h]
  exact advanceWhile_of_go hinner hc

theorem turn_blank (h : c :: rest <:+ text) (hc : Text.isBlank c = true) :
    (showing text (within d (c :: rest) p)).turn =
      (showing text (within c rest (p.step c))).turn := by
  rw [turn, turn, skipBlanks_blank h hc]

section Comments

variable {body : List Char}

/-- No third slash stands behind the two that open a line comment. -/
theorem not_third_slash {newline : Bool} (hpiece : (Trivia.line body newline).WellFormed)
    {back : List Char} (hback : back.head? ≠ some '/') :
    ¬ (body ++ back).head?.getD frame = '/' := by
  have hthird : body.head? ≠ some '/' := hpiece.2
  cases body with
  | cons x body => simpa using hthird
  | nil =>
    cases back with
    | nil => exact (by decide : ¬ frame = '/')
    | cons x back => simpa using hback

/-- A turn over a line comment that a newline ends. -/
theorem turn_line (hpiece : (Trivia.line body true).WellFormed)
    (htext : '/' :: '/' :: (body ++ '\n' :: rest) <:+ text) :
    (showing text (within d ('/' :: '/' :: (body ++ '\n' :: rest)) p)).turn =
      .again (showing text (within '\n' rest (p.advance (Trivia.line body true).text))) := by
  have hinner := (List.suffix_cons '/' _).trans htext
  rw [turn_within htext (by decide), read_slash_slash rfl hinner,
    if_neg (not_third_slash hpiece (by simp))]
  exact congrArg Turn.again (skipLine_of_newline hpiece.1 htext)

/-- A turn over a line comment that the text ends. -/
theorem turn_lastLine (hpiece : (Trivia.line body false).WellFormed)
    (htext : '/' :: '/' :: body <:+ text) :
    (showing text (within d ('/' :: '/' :: body) p)).turn =
      .again (showing text (closing (p.advance ('/' :: '/' :: body)).right)) := by
  have hinner := (List.suffix_cons '/' _).trans htext
  have hthird : ¬ (body ++ []).head?.getD frame = '/' := not_third_slash hpiece (by simp)
  rw [List.append_nil] at hthird
  rw [turn_within htext (by decide), read_slash_slash rfl hinner, if_neg hthird]
  exact congrArg Turn.again (skipLine_of_end hpiece.1 htext)

theorem suffix_of_block (htext : '/' :: '*' :: (body ++ '*' :: '/' :: rest) <:+ text) :
    '/' :: rest <:+ text :=
  (List.suffix_append ('/' :: '*' :: (body ++ ['*'])) _).trans (by simpa using htext)

/-- A turn over a block comment. -/
theorem turn_block (hpiece : (Trivia.block body).WellFormed)
    (htext : '/' :: '*' :: (body ++ '*' :: '/' :: rest) <:+ text) :
    (showing text (within d ('/' :: '*' :: (body ++ '*' :: '/' :: rest)) p)).turn =
      .again (showing text (within '/' rest (p.advance (Trivia.block body).text))) := by
  have hinner := (List.suffix_cons '/' _).trans htext
  have htail := suffix_of_block htext
  have hplace : p.advance (Trivia.block body).text =
      (p.right.advance ('*' :: (body ++ ['*']))).step '/' := by
    simp [Trivia.text, step_eq_right (c := '/') (by decide)]
  rw [turn_within htext (by decide), read_slash_star rfl hinner, skipBlock_of_close hpiece hinner,
    atEnd_within htail, advance_within htail, hplace]
  rfl

end Comments

/-- A comment or a blank takes a turn of its own, or none. -/
theorem next_piece {piece : Trivia} (hpiece : piece.WellFormed) (hclosed : piece.isClosed = true)
    (htext : piece.text ++ rest <:+ text) :
    ∃ e, (showing text (within d (piece.text ++ rest) p)).next =
      (showing text (within e rest (p.advance piece.text))).next := by
  cases piece with
  | blank c => exact ⟨c, next_of_turn_eq (turn_blank htext hpiece)⟩
  | line body newline =>
    obtain rfl : newline = true := hclosed
    rw [Trivia.text_line_append] at htext ⊢
    exact ⟨'\n', next_of_again (turn_line hpiece htext)⟩
  | block body =>
    rw [Trivia.text_block_append] at htext ⊢
    exact ⟨'/', next_of_again (turn_block hpiece htext)⟩

theorem next_gap {gap : List Trivia} (hgap : Trivia.ClosedGap gap)
    (htext : Trivia.gapText gap ++ rest <:+ text) :
    ∃ e, (showing text (within d (Trivia.gapText gap ++ rest) p)).next =
      (showing text (within e rest (p.advance (Trivia.gapText gap)))).next := by
  induction gap generalizing d p with
  | nil => exact ⟨d, rfl⟩
  | cons piece gap ih =>
    obtain ⟨hpiece, hclosed, hgap⟩ := Trivia.closedGap_cons.1 hgap
    rw [Trivia.gapText_cons, List.append_assoc] at htext ⊢
    obtain ⟨e, hfirst⟩ := next_piece hpiece hclosed htext
    obtain ⟨f, hrest⟩ := ih hgap ((List.suffix_append _ _).trans htext)
    exact ⟨f, by rw [hfirst, hrest, Position.advance_append]⟩

/-! ## One reading -/

/-- A gap with nothing behind it leads to the end mark. -/
theorem next_lastGap {gap : List Trivia} (hgap : Trivia.LastGap gap)
    (htext : Trivia.gapText gap <:+ text) :
    (showing text (within d (Trivia.gapText gap) p)).next =
      ⟨.ok (.eof (p.advance (Trivia.gapText gap)).right), [],
        showing text (ended (p.advance (Trivia.gapText gap)).right)⟩ := by
  rcases hgap with hclosed | ⟨front, body, rfl, hfront, hbody⟩
  · have hwhole : Trivia.gapText gap ++ [] <:+ text := by simpa using htext
    obtain ⟨e, hnext⟩ := next_gap (d := d) (p := p) hclosed hwhole
    rw [List.append_nil] at hnext
    rw [hnext, next_of_done turn_last]
  · rw [Trivia.gapText_append] at htext ⊢
    obtain ⟨e, hnext⟩ := next_gap (d := d) (p := p) hfront htext
    have hline : Trivia.gapText [.line body false] = '/' :: '/' :: body := by simp [Trivia.text]
    rw [hline] at htext hnext ⊢
    have htail := (List.suffix_append _ _).trans htext
    rw [hnext, next_of_again (turn_lastLine hbody htail), next_of_done turn_closing,
      Position.advance_append]

/-- A window reads what its cursor does, and shows the cursor behind that.  All
slices lie inside of the framed text. -/
theorem next_showing {c : Cursor} (h : c.unread <:+ text) :
    ∃ slices, (showing text c).next = ⟨c.next.value, slices, showing text c.next.cursor⟩ ∧
      ∀ bounds ∈ slices, Inside text bounds := by
  cases c with
  | within d rest p =>
    rcases Cursor.next_cases (within d rest p) with
      ⟨gap, hgap, hunread, hnext⟩ | ⟨gap, item, tail, hgap, hshape, hstops, hunread, hnext⟩
    · obtain rfl : rest = Trivia.gapText gap := hunread
      refine ⟨[], ?_, by simp⟩
      rw [next_lastGap hgap h, hnext]
      rfl
    · obtain rfl : rest = Trivia.gapText gap ++ (item.text ++ tail) := hunread
      have hitem : item.text ++ tail <:+ text := (List.suffix_append _ _).trans h
      obtain ⟨e, hgapped⟩ := next_gap (d := d) (p := p) hgap h
      obtain ⟨slices, hturn, hslices⟩ :=
        reads_item (d := e) (p := p.advance (Trivia.gapText gap)) hshape hstops hitem
      refine ⟨slices, ?_, hslices⟩
      rw [hgapped, next_of_done hturn, hnext]
      rfl
  | closing p => exact ⟨[], next_of_done turn_closing, by simp⟩
  | ended p => exact ⟨[], next_of_done turn_ended, by simp⟩

end Window
end SharpLexer
