import SharpLexer.Proofs.Agreement
import SharpLexer.Proofs.Window.Turns

/-!
# A window and a cursor in lockstep

A window and a cursor that were opened on one text are called in the same way,
any number of times and over errors.  They give the same outcomes, and the window
stays consistent: its buffer does not change, its index stays inside of the buffer
or right behind it, the characters that it keeps are those at the index, and its
place counts what it has passed over.

* `Position.advance_start` reads a place off the characters in front of it.
* `Window.consistent_showing` says that the window of a cursor is consistent.
* `Window.showing_of_lockstep` carries the cursor through a run, and
  `consistent_of_lockstep` is what follows for every window of every run.
-/

namespace SharpLexer

open Cursor (within closing ended frame nothing)

/-- A place counts the newlines in front of it, and the characters behind the last
of them. -/
theorem Position.advance_start (front : List Char) :
    start.advance front =
      ⟨front.count '\n' + 1, (front.reverse.takeWhile (· != '\n')).length⟩ := by
  induction front using List.reverseRecOn with
  | nil => rfl
  | append_singleton front c ih =>
    rw [advance_append, ih, advance_cons, advance_nil]
    by_cases hc : c = '\n'
    · subst hc
      simp
    · simp [step_of_ne hc, right, hc]

namespace Cursor

variable {text : List Char} {c : Cursor}

/-- Every outcome that comes from a text is written in it. -/
theorem exists_spells_infix (h : c.StandsIn text) (hend : c.next.value.isEnd = false) :
    ∃ spelling, spelling <:+: text ∧ c.next.value.Spells spelling := by
  obtain ⟨front, item, tail, hshape, -, htext, hvalue⟩ := exists_item_of_standsIn h hend
  refine ⟨item.text, ⟨front, tail, by rw [htext, List.append_assoc]⟩, ?_⟩
  rw [hvalue]
  exact Item.spells_outcome hshape _

theorem lexeme_infix (h : c.StandsIn text) {token : Token} (hvalue : c.next.value = .ok token) :
    token.lexeme.toList <:+: text := by
  cases hend : c.next.value.isEnd with
  | true =>
    have hmark := (next_of_isEnd hend).1
    rw [hvalue] at hmark
    rw [Except.ok.inj hmark]
    exact ⟨[], text, by simp [Token.eof]⟩
  | false =>
    obtain ⟨spelling, hinfix, hspells⟩ := exists_spells_infix h hend
    rw [hvalue] at hspells
    exact hspells.lexeme_infix.trans hinfix

theorem literal_infix (h : c.StandsIn text) {error : Error} (hvalue : c.next.value = .error error)
    {literal : String}
    (hfault : error.fault = .malformedNumber literal ∨ error.fault = .numberOutOfRange literal) :
    literal.toList <:+: text := by
  obtain ⟨spelling, hinfix, hspells⟩ := exists_spells_infix h (by simp [hvalue])
  rw [hvalue] at hspells
  rw [hspells.literal_eq hfault]
  exact hinfix

end Cursor

namespace Window

variable {text : List Char} {c : Cursor}

/-! ## Consistency -/

/-- The characters that a window has passed over, the one at its index included.
The blank in front of the text is not among them. -/
def passed (w : Window) : List Char :=
  (w.buffer.drop 1).take (min w.index.toNat (w.buffer.length - 1))

/-- What holds of every window on a text. -/
structure Consistent (text : List Char) (w : Window) : Prop where
  buffer : w.buffer = ' ' :: (text ++ [' '])
  length : w.buffer.length = text.length + 2
  index_nonneg : 0 ≤ w.index
  index_le : w.index ≤ w.buffer.length
  current : w.current = (w.buffer[w.index.toNat]?).getD '\x00'
  lookahead : w.lookahead = (w.buffer[w.index.toNat + 1]?).getD '\x00'
  column_nonneg : 0 ≤ w.column
  line : w.line = w.passed.count '\n' + 1
  column : w.column = (w.passed.reverse.takeWhile (· != '\n')).length

/-- What a window has passed over are the characters that its cursor counts. -/
theorem position_eq (h : c.StandsIn text) :
    c.position = Position.start.advance (showing text c).passed := by
  have hframe : frame ≠ '\n' := by decide
  have hbehind : (Position.start.advance text).right =
      Position.start.advance (text ++ [frame]) := by
    simp [Position.step_of_ne hframe]
  cases c with
  | within d rest p =>
    obtain ⟨front, rfl, rfl, -⟩ := h
    have hpassed : (showing (front ++ rest) (within d rest (Position.start.advance front))).passed =
        front := by
      simp [passed, index_showing, Cursor.index]
    rw [hpassed]
    rfl
  | closing p =>
    have hpassed : (showing text (closing p)).passed = text ++ [frame] := by
      simp [passed, index_showing, Cursor.index]
    rw [hpassed, ← hbehind]
    exact h
  | ended p =>
    have hpassed : (showing text (ended p)).passed = text ++ [frame] := by
      apply List.take_of_length_le
      simp only [buffer_showing, index_showing, Cursor.index, Int.toNat_natCast,
        List.drop_succ_cons, List.drop_zero, List.length_cons, List.length_append,
        List.length_nil]
      omega
    rw [hpassed, ← hbehind]
    exact h

theorem current_eq (h : c.StandsIn text) :
    c.current = ((showing text c).buffer[c.index text]?).getD nothing := by
  cases c with
  | within d rest p =>
    obtain ⟨front, rfl, -, hlast⟩ := h
    have hindex : (front ++ rest).length - rest.length = front.length := by simp
    have hbuffer : (showing (front ++ rest) (within d rest p)).buffer =
        (frame :: front) ++ (rest ++ [frame]) := by simp
    rw [List.getLast?_eq_getElem?, List.length_cons, Nat.add_sub_cancel] at hlast
    rw [Cursor.index, hindex, hbuffer, List.getElem?_append_left (by simp), hlast]
    rfl
  | closing p => simp [Cursor.index, Cursor.current]
  | ended p => simp [Cursor.index, Cursor.current]

theorem lookahead_eq (h : c.StandsIn text) :
    c.peek = ((showing text c).buffer[c.index text + 1]?).getD nothing := by
  cases c with
  | within d rest p =>
    obtain ⟨front, rfl, -, -⟩ := h
    have hindex : (front ++ rest).length - rest.length = front.length := by simp
    rw [Cursor.index, hindex, buffer_showing, getElem?_framed front rest 0]
    cases rest <;> rfl
  | closing p => simp [Cursor.index, Cursor.peek]
  | ended p => simp [Cursor.index, Cursor.peek]

/-- The window of a cursor that stands in a text is consistent. -/
theorem consistent_showing (h : c.StandsIn text) : (showing text c).Consistent text := by
  have hplace := position_eq h
  rw [Position.advance_start] at hplace
  have hindex : (showing text c).index.toNat = c.index text := Int.toNat_natCast _
  have hlength : (showing text c).buffer.length = text.length + 2 := by simp
  refine ⟨rfl, hlength, Int.natCast_nonneg _, ?_, ?_, ?_, Int.natCast_nonneg _, ?_, ?_⟩
  · have hle : c.index text ≤ text.length + 2 := by
      cases c <;> simp only [Cursor.index] <;> omega
    rw [index_showing, hlength]
    omega
  · rw [hindex]
    exact current_eq h
  · rw [hindex]
    exact lookahead_eq h
  · exact congrArg Position.line hplace
  · exact congrArg (fun p : Position => (p.column : Int)) hplace

/-! ## Runs -/

/-- A window and a cursor that were opened on a source text and called in the same
way. -/
inductive Lockstep (source : String) : Window → Cursor → Prop where
  | opened {opened : Reading Unit} (h : Cursor.ofSource source = .ok opened) :
      Lockstep source (ofText source.toList) opened.cursor
  | next {w : Window} {c : Cursor} (h : Lockstep source w c) :
      Lockstep source w.next.window c.next.cursor
  | next? {w : Window} {c : Cursor} (h : Lockstep source w c) :
      Lockstep source w.next?.window c.next?.cursor

/-- Reading on outcome by outcome does what a reading does, and keeps the end mark
back. -/
theorem next?_eq (w : Window) :
    w.next? = ⟨if w.next.value.isEnd then none else some w.next.value, w.next.slices,
      w.next.window⟩ := by
  unfold next?
  rcases w.next with ⟨value, slices, window⟩
  cases value <;> rfl

theorem unread_suffix_of_standsIn (h : c.StandsIn text) : c.unread <:+ text := by
  obtain ⟨front, htext, -⟩ := Cursor.exists_front_of_standsIn h
  exact ⟨front, htext.symm⟩

/-- A run keeps the window on what its cursor shows, and the cursor in the text. -/
theorem showing_of_lockstep {source : String} {w : Window} (h : Lockstep source w c) :
    w = showing source.toList c ∧ c.StandsIn source.toList := by
  induction h with
  | opened h =>
    obtain ⟨-, rfl⟩ := Cursor.ofSource_eq_ok_iff.1 h
    exact ⟨ofText_eq _, Cursor.standsIn_start _⟩
  | @next w c _ ih =>
    obtain ⟨rfl, hstands⟩ := ih
    obtain ⟨slices, hnext, -⟩ := next_showing (unread_suffix_of_standsIn hstands)
    rw [hnext]
    exact ⟨rfl, Cursor.standsIn_next hstands⟩
  | @next? w c _ ih =>
    obtain ⟨rfl, hstands⟩ := ih
    obtain ⟨slices, hnext, -⟩ := next_showing (unread_suffix_of_standsIn hstands)
    rw [next?_eq, hnext]
    exact ⟨rfl, Cursor.standsIn_next hstands⟩

end Window

/-- Every window of every run over a source text is consistent, and shows what its
cursor does.  The slices that the next reading takes lie inside of the buffer,
without the blanks that frame the text, so every lexeme and every literal of an
error is a part of the text. -/
theorem consistent_of_lockstep {source : String} {w : Window} {c : Cursor}
    (h : Window.Lockstep source w c) :
    w.Consistent source.toList ∧
      (∀ bounds ∈ w.next.slices,
        1 ≤ bounds.1 ∧ bounds.1 ≤ bounds.2 ∧ bounds.2 ≤ (w.buffer.length : Int) - 1) ∧
      w.next?.slices = w.next.slices ∧
      (∀ token, w.next.value = .ok token → token.lexeme.toList <:+: source.toList) ∧
      (∀ error literal, w.next.value = .error error →
        error.fault = .malformedNumber literal ∨ error.fault = .numberOutOfRange literal →
        literal.toList <:+: source.toList) ∧
      w.next.value = c.next.value ∧ w.next?.value = c.next?.value ∧
      w.current = c.current ∧ w.lookahead = c.peek ∧ w.position = c.position := by
  obtain ⟨rfl, hstands⟩ := Window.showing_of_lockstep h
  obtain ⟨slices, hnext, hslices⟩ :=
    Window.next_showing (Window.unread_suffix_of_standsIn hstands)
  have hvalue : (Window.showing source.toList c).next.value = c.next.value := by rw [hnext]
  refine ⟨Window.consistent_showing hstands, ?_, ?_, ?_, ?_, hvalue, ?_, rfl, rfl, rfl⟩
  · intro bounds hbounds
    rw [hnext] at hbounds
    obtain ⟨hstart, horder, hstop⟩ := hslices bounds hbounds
    refine ⟨hstart, horder, ?_⟩
    rw [Window.buffer_showing]
    simp only [List.length_cons, List.length_append, List.length_nil]
    omega
  · rw [Window.next?_eq]
  · intro token htoken
    exact Cursor.lexeme_infix hstands (hvalue ▸ htoken)
  · intro error literal herror hfault
    exact Cursor.literal_infix hstands (hvalue ▸ herror) hfault
  · rw [Window.next?_eq, hvalue, Cursor.next?_value]

/-- A number with two points, and a string without an end on the next line. -/
def danglingSource : String := "1..2\n'é"

/-- Two calls over errors leave the window on the closing blank. -/
theorem consistent_danglingSource :
    Cursor.ofSource danglingSource = .ok ⟨(), [.opened 7], Cursor.start danglingSource.toList⟩ ∧
      (Window.ofText danglingSource.toList).next.window.next?.window.Consistent
        danglingSource.toList ∧
      (Window.ofText danglingSource.toList).next.window.next?.window.current = ' ' ∧
      (Window.ofText danglingSource.toList).next.window.next?.window.position = ⟨2, 3⟩ := by
  have hopened : Cursor.ofSource danglingSource =
      .ok ⟨(), [.opened 7], Cursor.start danglingSource.toList⟩ :=
    Cursor.ofSource_eq_ok_iff.2 ⟨by decide, rfl⟩
  obtain ⟨hconsistent, -, -, -, -, -, -, hcurrent, -, hposition⟩ :=
    consistent_of_lockstep (.next? (.next (.opened hopened)))
  refine ⟨hopened, hconsistent, ?_, ?_⟩
  · rw [hcurrent]
    decide +kernel
  · rw [hposition]
    decide +kernel

end SharpLexer
