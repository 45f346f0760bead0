import SharpLexer.Text.Extending
import SharpLexer.Text.Graphic

/-!
# Quoted texts

A quoted text stands between two delimiters and shows every character so
that it can be read back: a backslash opens an escape, a few controls have
a letter of their own, and whatever has no clear visible form is written
by its code point.
-/

namespace SharpLexer.Text

/-- The escape of a code point in hexadecimal, without leading zeros. -/
def codeEscape (c : Char) : List Char :=
  ['\\', 'u', '\x7b'] ++ Nat.toDigits 16 c.toNat ++ ['\x7d']

/-- How a character is written between two delimiters. -/
def spell (delimiter c : Char) : List Char :=
  if c = '\x00' then ['\\', '0']
  else if c = '\t' then ['\\', 't']
  else if c = '\r' then ['\\', 'r']
  else if c = '\n' then ['\\', 'n']
  else if c = '\\' then ['\\', '\\']
  else if c = delimiter then ['\\', delimiter]
  else if isExtending c || !isGraphic c then codeEscape c
  else [c]

/-- A text between two delimiters. -/
def enclose (delimiter : Char) (text : List Char) : List Char :=
  delimiter :: (text.flatMap (spell delimiter) ++ [delimiter])

/-- A text in double quotes. -/
def quoteText (text : String) : String := String.ofList (enclose '"' text.toList)

/-- A character in single quotes. -/
def quoteChar (c : Char) : String := String.ofList (enclose '\'' [c])

end SharpLexer.Text
