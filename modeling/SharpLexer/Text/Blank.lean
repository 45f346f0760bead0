/-!
# Blank characters

Two notions of white space are in use.  `isBlank` is the small set that
separates tokens, and `isWhiteSpace` is the Unicode property
`White_Space`, which the diagnostics trim from the end of a line.
-/

namespace SharpLexer.Text

/-- The characters that separate tokens: space, tabulator, newline,
vertical tabulator, form feed and carriage return. -/
def isBlank (c : Char) : Bool :=
  c = ' ' || c = '\t' || c = '\n' || c = '\x0b' || c = '\x0c' || c = '\r'

/-- The code points of the property `White_Space`. -/
def whiteSpace : List Nat :=
  [0x09, 0x0A, 0x0B, 0x0C, 0x0D, 0x20, 0x85, 0xA0, 0x1680,
   0x2000, 0x2001, 0x2002, 0x2003, 0x2004, 0x2005, 0x2006, 0x2007, 0x2008, 0x2009, 0x200A,
   0x2028, 0x2029, 0x202F, 0x205F, 0x3000]

/-- A character with the property `White_Space`. -/
def isWhiteSpace (c : Char) : Bool := whiteSpace.contains c.toNat

/-- The text without the white space at its end. -/
def trimEnd (text : List Char) : List Char :=
  (text.reverse.dropWhile isWhiteSpace).reverse

end SharpLexer.Text
