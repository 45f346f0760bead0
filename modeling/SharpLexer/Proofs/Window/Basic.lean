import Mathlib.Tactic.SplitIfs
import SharpLexer.Stream

/-!
# A reader over a buffer

A cursor holds the text that it has not read.  The same reader can be built on
a buffer that does not change and an index that moves over it, one character at
a time.  A window is such a reader.  It keeps a copy of the two characters at its
index, and it takes the lexemes out of the buffer by slices.

* `Window.advance` is the only move, and `Window.advanceWhile` the only loop.
  `Window.Loop` lists the conditions that it is run with.  `Window.Loop.stops` says
  that it is the condition that ends it, and `Window.loops_stop` that so end all
  loops of a turn.
* `Window.turn` does what can be done behind one gap of blanks: it skips one
  comment, or it reads one token.  `Window.next` takes turns until a token or an
  error comes of it.
* `Window.Glance` keeps the bounds of the slices that were taken on the way.

That every slice lies inside of the text, and that a window reads what a cursor
does, is proved in `SharpLexer.Proofs.Window.Lockstep`.
-/

namespace SharpLexer

/-- A place in a buffer that is being read. -/
structure Window where
  buffer : List Char
  index : Int
  /-- The character at the index. -/
  current : Char
  /-- The character behind it. -/
  lookahead : Char
  line : Nat
  column : Int
  deriving DecidableEq

namespace Window

/-! ## Moving -/

/-- A signed index of 64 bits, taken for an unsigned one. -/
def unsigned (index : Int) : Nat :=
  if 0 ≤ index then index.toNat else Nat.pow 2 64 - index.natAbs

/-- The character at an index, if there is one. -/
def charAt (w : Window) (index : Int) : Char :=
  if index < 0 then Cursor.nothing
  else w.buffer[unsigned index]?.getD Cursor.nothing

/-- The move onto the next character.  Behind the buffer there is nothing, and
the place does not change any more. -/
def advance (w : Window) : Window :=
  let next := w.index + 1
  if h : w.buffer.length ≤ unsigned next then
    { w with index := w.buffer.length, current := Cursor.nothing, lookahead := Cursor.nothing }
  else
    let current := w.buffer[unsigned next]
    let moved := { w with index := next, current := current, lookahead := w.charAt (next + 1) }
    if current = '\n' then { moved with line := w.line + 1, column := 0 }
    else { moved with column := w.column + 1 }

/-- The window in front of a text, which is framed by a blank on either side. -/
def ofText (text : List Char) : Window :=
  advance ⟨Cursor.frame :: (text ++ [Cursor.frame]), -1, Cursor.nothing, Cursor.nothing, 1, -1⟩

/-- The place of the character at the index. -/
def position (w : Window) : Position := ⟨w.line, w.column.toNat⟩

/-- The window stands on the last character of the buffer, or behind it. -/
def atEnd (w : Window) : Bool := w.buffer.length - 1 ≤ unsigned w.index

/-- The next move leads to the last character of the buffer, or behind it. -/
def nextIsEnd (w : Window) : Bool := (w.buffer.length : Int) - 1 ≤ w.index + 1

/-- The characters of the buffer from `start` on and in front of `stop`. -/
def slice (w : Window) (start stop : Int) : List Char :=
  (w.buffer.take (unsigned stop)).drop (unsigned start)

/-- How many moves are left until the index is behind the buffer. -/
def left (w : Window) : Nat := ((w.buffer.length : Int) - w.index).toNat

/-- A move leads on, or there was nothing to move onto. -/
theorem advance_cases (w : Window) :
    (w.advance.current = Cursor.nothing ∧ w.advance.lookahead = Cursor.nothing ∧
        w.advance.left = 0) ∨
      (0 < w.advance.left ∧ w.advance.left + 1 = w.left) := by
  unfold advance left
  dsimp only
  split
  · exact Or.inl ⟨rfl, rfl, by simp⟩
  · next h =>
    have hlt : w.index + 1 < w.buffer.length := by
      unfold unsigned at h
      split at h <;> omega
    right
    split <;> dsimp only <;> omega

theorem left_advance_le (w : Window) : w.advance.left ≤ w.left := by
  rcases w.advance_cases with ⟨-, -, hleft⟩ | ⟨-, hleft⟩ <;> omega

/-- Moves on as long as `p` holds.  The loop also ends where the buffer does, but no
condition that is used here holds there: see `Window.Loop.stops`. -/
def advanceWhile (p : Window → Bool) (w : Window) : Window :=
  if p w = true ∧ w.advance.left < w.left then advanceWhile p w.advance else w
termination_by w.left
decreasing_by omega

theorem left_advanceWhile_le (p : Window → Bool) (w : Window) :
    (w.advanceWhile p).left ≤ w.left := by
  induction hleft : w.left using Nat.strongRecOn generalizing w with
  | ind left ih =>
    subst hleft
    rw [advanceWhile]
    split
    · next h => exact Nat.le_trans (ih _ h.2 w.advance rfl) (Nat.le_of_lt h.2)
    · exact Nat.le_refl _

theorem advanceWhile_of_not {p : Window → Bool} {w : Window} (h : p w = false) :
    w.advanceWhile p = w := by
  rw [advanceWhile, if_neg (by simp [h])]

end Window

/-! ## Reading -/

/-- What comes of a window: a result, the bounds of the slices that were taken on
the way, and the window behind it. -/
structure Window.Glance (α : Type) where
  value : α
  slices : List (Int × Int)
  window : Window

namespace Window

/-! ### How long the loops go on -/

def inBlanks (w : Window) : Bool := Text.isBlank w.current

def inLine (w : Window) : Bool := !w.atEnd && w.current != '\n'

def inBlock (w : Window) : Bool := !w.atEnd && !(w.current == '*' && w.lookahead == '/')

def inQuotes (quote : Char) (w : Window) : Bool := w.current != quote && !w.atEnd

def inDoc (w : Window) : Bool := w.lookahead != '\n' && !w.nextIsEnd

def inWord (w : Window) : Bool :=
  Item.continuesWord w.current && (Item.continuesWord w.lookahead || w.lookahead == '?')

def inNumber (w : Window) : Bool := Number.continues w.lookahead

/-! ### Where the loops stop -/

/-- The conditions of the loops. -/
inductive Loop : (Window → Bool) → Prop where
  | blanks : Loop inBlanks
  | line : Loop inLine
  | block : Loop inBlock
  | quotes (quote : Char) : Loop (inQuotes quote)
  | doc : Loop inDoc
  | word : Loop inWord
  | number : Loop inNumber

/-- A window behind the buffer shows nothing. -/
def Settled (w : Window) : Prop :=
  w.left = 0 → w.current = Cursor.nothing ∧ w.lookahead = Cursor.nothing

/-- Wherever it comes from, a move leads to such a window. -/
theorem settled_advance (w : Window) : w.advance.Settled := by
  intro hleft
  rcases w.advance_cases with ⟨hcurrent, hlookahead, -⟩ | ⟨hpos, -⟩
  · exact ⟨hcurrent, hlookahead⟩
  · omega

theorem settled_advanceWhile {p : Window → Bool} {w : Window} (h : w.Settled) :
    (w.advanceWhile p).Settled := by
  fun_induction advanceWhile p w with
  | case1 w _ ih => exact ih w.settled_advance
  | case2 w _ => exact h

theorem length_le_index {w : Window} (h : w.left = 0) : (w.buffer.length : Int) ≤ w.index := by
  unfold left at h
  omega

theorem atEnd_of_left {w : Window} (h : w.left = 0) : w.atEnd = true := by
  have hindex := length_le_index h
  unfold atEnd unsigned
  rw [decide_eq_true_eq]
  split <;> omega

theorem nextIsEnd_of_left {w : Window} (h : w.left = 0) : w.nextIsEnd = true := by
  have hindex := length_le_index h
  unfold nextIsEnd
  rw [decide_eq_true_eq]
  omega

namespace Loop

variable {p : Window → Bool} {w : Window} (h : Loop p) (hw : w.Settled)
include h hw

/-- No loop goes on behind the buffer. -/
theorem eq_false_of_left (hleft : w.left = 0) : p w = false := by
  obtain ⟨hcurrent, hlookahead⟩ := hw hleft
  have hend := atEnd_of_left hleft
  have hnext := nextIsEnd_of_left hleft
  cases h with
  | blanks =>
    rw [inBlanks, hcurrent]
    decide
  | line => simp [inLine, hend]
  | block => simp [inBlock, hend]
  | quotes quote => simp [inQuotes, hend]
  | doc => simp [inDoc, hnext]
  | word =>
    have hnothing : Item.continuesWord Cursor.nothing = false := by decide
    rw [inWord, hcurrent, hnothing, Bool.false_and]
  | number =>
    rw [inNumber, hlookahead]
    decide

/-- So as long as its condition holds, a loop leads on. -/
theorem left_advance_lt (hp : p w = true) : w.advance.left < w.left := by
  have hpos : w.left ≠ 0 := by
    intro hleft
    rw [h.eq_false_of_left hw hleft] at hp
    exact absurd hp (by decide)
  rcases w.advance_cases with ⟨-, -, hzero⟩ | ⟨-, hleft⟩ <;> omega

/-- A loop goes on just where its condition holds. -/
theorem advanceWhile_eq :
    w.advanceWhile p = if p w = true then w.advance.advanceWhile p else w := by
  rw [advanceWhile]
  by_cases hp : p w = true
  · rw [if_pos ⟨hp, h.left_advance_lt hw hp⟩, if_pos hp]
  · rw [if_neg (mt And.left hp), if_neg hp]

/-- A loop ends where its condition does not hold, and for no other reason. -/
theorem stops : p (w.advanceWhile p) = false := by
  induction hleft : w.left using Nat.strongRecOn generalizing w with
  | ind left ih =>
    subst hleft
    rw [h.advanceWhile_eq hw]
    split
    · next hp => exact ih _ (h.left_advance_lt hw hp) w.settled_advance rfl
    · next hp => exact Bool.eq_false_iff.2 hp

end Loop

/-! ### Gaps and items -/

/-- Moves on over blanks. -/
def skipBlanks (w : Window) : Window := w.advanceWhile inBlanks

/-- Moves onto the newline that ends a line comment. -/
def skipLine (w : Window) : Window := w.advanceWhile inLine

/-- Moves onto the star that ends a block comment.  Its first two characters are
passed over, so that they do not end it. -/
def skipBlock (w : Window) : Window := w.advance.advance.advanceWhile inBlock

/-- A string up to its closing quote. -/
def quoted (w : Window) (start : Position) : Glance Outcome :=
  let quote := w.current
  let first := w.advance
  let last := first.advanceWhile (inQuotes quote)
  if last.current = quote then
    ⟨.ok (.plain .stringLiteral (last.slice first.index last.index) start),
      [(first.index, last.index)], last⟩
  else ⟨.error ⟨.unterminatedString quote, start⟩, [], last⟩

/-- A documentation comment up to its newline, without a carriage return. -/
def doc (w : Window) (start : Position) : Glance Outcome :=
  let last := w.advanceWhile inDoc
  let lexeme := last.slice w.index (last.index + 1)
  ⟨.ok (.plain .docComment (Text.dropReturn lexeme) start), [(w.index, last.index + 1)], last⟩

/-- A word up to the last character that goes on with it. -/
def word (w : Window) (start : Position) : Glance Outcome :=
  let last := w.advanceWhile inWord
  let lexeme := last.slice w.index (last.index + 1)
  ⟨.ok (.plain (Word.kind (String.ofList lexeme)) lexeme start),
    [(w.index, last.index + 1)], last⟩

/-- A number up to the last character that goes on with it. -/
def number (w : Window) (start : Position) : Glance Outcome :=
  let last := w.advanceWhile inNumber
  let literal := last.slice w.index (last.index + 1)
  ⟨(Item.number literal).outcome start, [(w.index, last.index + 1)], last⟩

/-- The given number of moves. -/
def advanceBy (w : Window) : Nat → Window
  | 0 => w
  | n + 1 => w.advance.advanceBy n

/-- The longest operator that fits the next three characters, or a character that
starts nothing. -/
def operator (w : Window) (start : Position) : Glance Outcome :=
  match Operator.find? [w.current, w.lookahead, w.charAt (w.index + 2)] with
  | some op => ⟨.ok (.plain op.kind op.symbol start), [], w.advanceBy (op.symbol.length - 1)⟩
  | none => ⟨.ok (.plain .stray [w.current] start), [], w⟩

/-- What comes of one turn. -/
inductive Turn where
  /-- A comment was skipped. -/
  | again (w : Window)
  | done (glance : Glance Outcome)

/-- Moves over one comment or one item, whose first character the window stands
on. -/
def read (w : Window) : Turn :=
  let start := w.position
  if w.current = Cursor.nothing ∧ w.atEnd = true then .done ⟨.ok (.eof start), [], w⟩
  else if Item.isQuote w.current then .done (w.quoted start)
  else if w.current = '/' ∧ w.lookahead = '/' then
    if w.charAt (w.index + 2) = '/' then .done (w.doc start) else .again w.skipLine
  else if w.current = '/' ∧ w.lookahead = '*' then
    if w.skipBlock.atEnd then .done ⟨.error ⟨.unterminatedComment, start⟩, [], w.skipBlock⟩
    else .again w.skipBlock.advance
  else if Item.startsWord w.current then .done (w.word start)
  else if w.current.isDigit then .done (w.number start)
  else .done (w.operator start)

/-- Moves over blanks, and then over one comment or one item. -/
def turn (w : Window) : Turn := w.advance.skipBlanks.read

/-- Each loop of a turn ends where its condition does not hold, whatever window the
turn is taken on: it starts behind a move. -/
theorem loops_stop (w : Window) :
    let first := w.advance.skipBlanks
    inBlanks first = false ∧ inLine first.skipLine = false ∧ inBlock first.skipBlock = false ∧
      (∀ quote, inQuotes quote (first.advance.advanceWhile (inQuotes quote)) = false) ∧
      inDoc (first.advanceWhile inDoc) = false ∧ inWord (first.advanceWhile inWord) = false ∧
      inNumber (first.advanceWhile inNumber) = false := by
  intro first
  have hfirst : first.Settled := settled_advanceWhile w.settled_advance
  refine ⟨Loop.blanks.stops w.settled_advance, Loop.line.stops hfirst,
    Loop.block.stops (settled_advance _), ?_, Loop.doc.stops hfirst, Loop.word.stops hfirst,
    Loop.number.stops hfirst⟩
  intro quote
  exact (Loop.quotes quote).stops first.settled_advance

theorem left_skipBlock_le (w : Window) : w.skipBlock.left ≤ w.left := by
  have hloop : w.skipBlock.left ≤ w.advance.advance.left := left_advanceWhile_le _ _
  have hsecond := left_advance_le w.advance
  have hfirst := left_advance_le w
  omega

/-- Only a comment is skipped. -/
theorem current_of_read {w w' : Window} (h : w.read = .again w') :
    w.current = '/' ∧ w'.left ≤ w.left := by
  unfold read at h
  dsimp only at h
  split_ifs at h with hend hquote hline hdoc hblock hopen hword hdigit
  · obtain rfl := Turn.again.inj h
    exact ⟨hline.1, left_advanceWhile_le _ _⟩
  · obtain rfl := Turn.again.inj h
    exact ⟨hblock.1, Nat.le_trans (left_advance_le _) (left_skipBlock_le w)⟩

/-- A turn that skips a comment leads on. -/
theorem left_lt_of_turn {w w' : Window} (h : w.turn = .again w') : w'.left < w.left := by
  obtain ⟨hcurrent, hle⟩ := current_of_read h
  have hblanks : w.advance.skipBlanks.left ≤ w.advance.left := left_advanceWhile_le _ _
  rcases w.advance_cases with ⟨hnothing, -, hzero⟩ | ⟨-, hleft⟩
  · -- nothing is no blank, so the window would stand on it
    have hstays : w.advance.skipBlanks = w.advance :=
      advanceWhile_of_not (Loop.blanks.eq_false_of_left w.settled_advance hzero)
    rw [hstays, hnothing] at hcurrent
    exact absurd hcurrent (by decide)
  · omega

/-- Reads one token, or the error in its place. -/
def next (w : Window) : Glance Outcome :=
  match _h : w.turn with
  | .again w' => next w'
  | .done glance => glance
termination_by w.left
decreasing_by exact left_lt_of_turn _h

/-- The next outcome, or nothing at the end of the text. -/
def next? (w : Window) : Glance (Option Outcome) :=
  let glance := w.next
  match glance.value with
  | .ok token => ⟨if token.isEof then none else some (.ok token), glance.slices, glance.window⟩
  | .error error => ⟨some (.error error), glance.slices, glance.window⟩

theorem next_of_again {w w' : Window} (h : w.turn = .again w') : w.next = w'.next := by
  rw [next]
  split
  · next found hfound => rw [Turn.again.inj (h.symm.trans hfound)]
  · next glance hfound => exact Turn.noConfusion (h.symm.trans hfound)

theorem next_of_done {w : Window} {glance : Glance Outcome} (h : w.turn = .done glance) :
    w.next = glance := by
  rw [next]
  split
  · next found hfound => exact Turn.noConfusion (h.symm.trans hfound)
  · next other hfound => exact (Turn.done.inj (h.symm.trans hfound)).symm

end Window

end SharpLexer
