import SharpLexer.Scan.Item
import SharpLexer.Scan.Trivia

/-!
# Reading tokens one at a time

A cursor stands on the last character that was read and holds the text
that was not.  A text is framed by one blank on either side, so that a
fresh cursor has a character to stand on, and one that has read everything
still has a place to go to.

* `Cursor.ofSource` opens a text.
* `Cursor.next` skips a gap and reads one item.  At the end of the text it
  gives the end mark, again and again.
-/

namespace SharpLexer

/-- A place in a text that is being read. -/
inductive Cursor where
  /-- On a character of the text, or on the blank in front of it. -/
  | within (current : Char) (unread : List Char) (position : Position)
  /-- On the blank behind the text. -/
  | closing (position : Position)
  /-- Past the blank behind the text. -/
  | ended (position : Position)
  deriving DecidableEq

/-- A result, what was reported on the way to it, and the cursor after
it. -/
structure Reading (α : Type) where
  value : α
  events : List Event
  cursor : Cursor

namespace Cursor

/-! ## Views -/

/-- The blank that frames a text. -/
def frame : Char := ' '

/-- What stands past the frame. -/
def nothing : Char := '\x00'

/-- The character that the cursor stands on. -/
def current : Cursor → Char
  | within c _ _ => c
  | closing _ => frame
  | ended _ => nothing

/-- The characters of the text behind the cursor. -/
def unread : Cursor → List Char
  | within _ rest _ => rest
  | closing _ => []
  | ended _ => []

/-- The character behind the one that the cursor stands on. -/
def peek : Cursor → Char
  | within _ rest _ => rest.head?.getD frame
  | closing _ => nothing
  | ended _ => nothing

/-- The place of the character that the cursor stands on.  It no longer
changes behind the text. -/
def position : Cursor → Position
  | within _ _ p => p
  | closing p => p
  | ended p => p

/-! ## Opening a text -/

/-- The cursor in front of a text. -/
def start (text : List Char) : Cursor := within frame text Position.start

/-- Opens a text, which has to hold more than blanks. -/
def ofSource (source : String) : Except Error (Reading Unit) :=
  let text := source.toList
  if text.all Text.isBlank then .error ⟨.emptyInput, Position.nowhere⟩
  else .ok ⟨(), [.opened text.length], start text⟩

/-! ## Reading on -/

/-- The end mark at the given place. -/
def finish (events : List Event) (p : Position) : Reading Outcome :=
  let mark := Token.eof p
  ⟨.ok mark, events ++ [.produced mark], ended p⟩

/-- The cursor after an item, given the place in front of it and the text
behind it.  An item without an end leaves the cursor on the closing
blank. -/
def after (before : Position) (item : Item) (rest : List Char) : Cursor :=
  let last := before.advance item.text
  if item.isOpen then closing last.right
  else within (item.text.getLast?.getD frame) rest last

/-- Reads on from a place with the given text ahead. -/
def read (p : Position) (unread : List Char) : Reading Outcome :=
  let gap := Trivia.split unread
  let skipped := Trivia.events p gap.1
  let before := p.advance (Trivia.gapText gap.1)
  match gap.2 with
  | [] => finish skipped before.right
  | c :: rest =>
    let item := Item.cut c rest
    ⟨item.1.outcome before.right, skipped ++ item.1.events before.right,
      after before item.1 item.2⟩

/-- Reads one token, or the error in its place. -/
def next : Cursor → Reading Outcome
  | within _ rest p => read p rest
  | closing p => finish [] p
  | ended p => finish [] p

@[simp] theorem next_within (c : Char) (text : List Char) (p : Position) :
    (within c text p).next = read p text := rfl

@[simp] theorem next_closing (p : Position) : (closing p).next = finish [] p := rfl

@[simp] theorem next_ended (p : Position) : (ended p).next = finish [] p := rfl

end Cursor

/-- The reading that meets the end of the text. -/
def Reading.isLast (reading : Reading Outcome) : Bool :=
  match reading.value with
  | .ok token => token.isEof
  | .error _ => false

/-- The reading that meets an error. -/
def Reading.failed (reading : Reading Outcome) : Bool :=
  match reading.value with
  | .ok _ => false
  | .error _ => true

namespace Cursor

@[simp] theorem isLast_finish (events : List Event) (p : Position) :
    (finish events p).isLast = true := rfl

/-- Every reading but the last one leaves less to read. -/
theorem unread_next_lt {c : Cursor} (h : c.next.isLast = false) :
    c.next.cursor.unread.length < c.unread.length := by
  rcases c with ⟨current, text, p⟩ | p | p
  · simp only [next, read] at h ⊢
    have hgap := Trivia.length_split text
    split at h
    · simp at h
    · next d rest hrest =>
      rw [hrest] at hgap
      have hcut := Item.length_cut d rest
      simp only [List.length_cons] at hgap
      simp only [after]
      split
      · simp [unread]; omega
      · simp [unread]; omega
  · simp [next] at h
  · simp [next] at h

end Cursor

end SharpLexer
