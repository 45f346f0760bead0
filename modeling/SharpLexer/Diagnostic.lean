import SharpLexer.Error
import SharpLexer.Text.Blank
import SharpLexer.Text.Lines

/-!
# Diagnostics

A diagnostic names an error and its place, shows the line that the place
is on, and points at the column with a caret:

```text
Error: InvalidNumberFormat (Invalid number: `1.2.3`, a number may contain at most one decimal point)
-> input.cs:1:5
  |
1 | x = 1.2.3
  | ----^
```

The line is shown without its indentation, so the caret moves left by as
much.  A place that is on no line has the first two lines only.  A caret
can be at most `Diagnostic.widest` columns wide; a diagnostic that needs
more breaks off in front of the caret.
-/

namespace SharpLexer

/-- The lines of a diagnostic, and whether they are all there. -/
structure Diagnostic where
  lines : List String
  complete : Bool
  deriving DecidableEq

namespace Diagnostic

/-- The greatest width that a caret line can be laid out with. -/
def widest : Nat := 65535

/-- A character of the indentation of a line. -/
def isIndent (c : Char) : Bool := c = ' ' || c = '\t'

/-- The first line: the name of the fault, and the tip if there is one. -/
def title (fault : Fault) : String :=
  "Error: " ++ fault.name ++
    match fault.tip? with
    | some tip => " (" ++ tip ++ ")"
    | none => ""

/-- The bar in the margin beside a line with the given number. -/
def margin (line : Nat) : String :=
  String.ofList (List.replicate (line.repr.length + 1) ' ' ++ ['|'])

/-- The column of the caret, counted from the start of the shown text. -/
def caretColumn (column : Nat) (text : List Char) : Nat :=
  max 1 (column - (text.takeWhile isIndent).length)

/-- The text of a line as it is shown: without its indentation and without
the white space at its end. -/
def shown (text : List Char) : List Char := Text.trimEnd (text.dropWhile isIndent)

/-- A caret in the given column, with a rule that leads up to it. -/
def caret (column : Nat) : String :=
  String.ofList (List.replicate (column - 1) '-' ++ ['^'])

/-- The lines that show where an error is. -/
def excerpt (position : Position) (text : List Char) : Diagnostic :=
  let bar := margin position.line
  let column := caretColumn position.column text
  let line := position.line.repr ++ " | " ++ String.ofList (shown text)
  if column ≤ widest then ⟨[bar, line, bar ++ " " ++ caret column], true⟩
  else ⟨[bar, line], false⟩

/-- The diagnostic of an error in a source text from a file. -/
def ofError (error : Error) (source file : String) : Diagnostic :=
  let head := [title error.fault, "-> " ++ file ++ ":" ++ error.position.render]
  match Text.line? source.toList error.position.line with
  | none => ⟨head, true⟩
  | some text =>
    let body := excerpt error.position text
    ⟨head ++ body.lines, body.complete⟩

/-- A diagnostic as one text, with a newline after each line. -/
def text (diagnostic : Diagnostic) : String :=
  String.join (diagnostic.lines.map (· ++ "\n"))

end Diagnostic

end SharpLexer
