/-!
# Lines of a text

A text is cut at its newlines, so it has one line more than it has
newlines.  A carriage return in front of a newline, or at the end of the
text, belongs to the line ending and not to the line.
-/

namespace SharpLexer.Text

/-- The text without one carriage return at its end. -/
def dropReturn (text : List Char) : List Char :=
  if text.getLast? = some '\r' then text.dropLast else text

/-- Puts a character in front of the first of some lines. -/
def pushFirst (c : Char) : List (List Char) → List (List Char)
  | [] => [[c]]
  | line :: rest => (c :: line) :: rest

/-- The pieces of a text between its newlines. -/
def pieces (text : List Char) : List (List Char) :=
  text.foldr (fun c rest => if c = '\n' then [] :: rest else pushFirst c rest) [[]]

@[simp] theorem pieces_nil : pieces [] = [[]] := rfl

@[simp] theorem pieces_newline (text : List Char) :
    pieces ('\n' :: text) = [] :: pieces text := rfl

theorem pieces_cons {c : Char} (h : c ≠ '\n') (text : List Char) :
    pieces (c :: text) = pushFirst c (pieces text) := by
  simp [pieces, h]

/-- The line with the given number, counted from one and without its
ending.  There is no line zero. -/
def line? (text : List Char) (number : Nat) : Option (List Char) :=
  if number = 0 then none else (pieces text)[number - 1]?.map dropReturn

end SharpLexer.Text
