/-!
# Places in a text

A place is a line and a column, both counted from one.  A reader that has
consumed some characters stands on the last of them, so the place before
the first character of a text is column zero of line one.

* `Position.step` is the move onto one more character.
* `Position.advance` is the move over a run of characters.
-/

namespace SharpLexer

/-- A line and a column.  Both count characters, never bytes. -/
structure Position where
  line : Nat
  column : Nat
  deriving DecidableEq

namespace Position

/-- The place of a fault that belongs to no character. -/
def nowhere : Position := ⟨0, 0⟩

/-- The place in front of the first character of a text. -/
def start : Position := ⟨1, 0⟩

/-- The next column of the same line. -/
def right (p : Position) : Position := ⟨p.line, p.column + 1⟩

/-- The place after a move onto `c`.  A newline opens a line and stands in
its column zero, and every other character takes the next column. -/
def step (p : Position) (c : Char) : Position :=
  if c = '\n' then ⟨p.line + 1, 0⟩ else p.right

/-- The place after a move over every character of `text`. -/
def advance (p : Position) (text : List Char) : Position :=
  text.foldl step p

/-- The line and the column with a colon between them. -/
def render (p : Position) : String :=
  p.line.repr ++ ":" ++ p.column.repr

@[simp] theorem step_newline (p : Position) : p.step '\n' = ⟨p.line + 1, 0⟩ := rfl

theorem step_of_ne {c : Char} (h : c ≠ '\n') (p : Position) : p.step c = p.right := if_neg h

@[simp] theorem advance_nil (p : Position) : p.advance [] = p := rfl

@[simp] theorem advance_cons (p : Position) (c : Char) (text : List Char) :
    p.advance (c :: text) = (p.step c).advance text := rfl

@[simp] theorem advance_append (p : Position) (front back : List Char) :
    p.advance (front ++ back) = (p.advance front).advance back :=
  List.foldl_append

end Position

end SharpLexer
